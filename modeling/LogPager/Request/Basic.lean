import LogPager.Edge
import LogPager.Message.Basic
import LogPager.Request.Cancel

/-!
# Requests and replies

A request asks a log source for a bounded run of records at one edge of the
window.  It carries the generation of the file it was made for, so that a late
reply for an earlier file can be told apart.
-/

namespace LogPager

/-- A bounded read of one file toward one edge. -/
structure Request where
  id : Nat
  /-- The file generation the request was made under. -/
  epoch : Nat
  file : FileRef
  edge : Edge
  /-- Position of the edge record to go on from.  Without it the read starts
  from the far end of the file: the last records for the older edge and the
  first for the newer. -/
  anchor : Option Nat
  limit : Nat
  token : CancelToken
deriving DecidableEq, Repr

/-- Why a read failed. -/
inductive ReadError where
  | io (text : String)
  | decode (text : String)
  | unknownFile (name : String)
  | cancelled
  | disconnected
deriving DecidableEq, Repr

def ReadError.message : ReadError → String
  | .io text => "I/O error: " ++ text
  | .decode text => "malformed message: " ++ text
  | .unknownFile name => "unknown log file `" ++ name ++ "`"
  | .cancelled => "request cancelled"
  | .disconnected => "transport disconnected"

/-- A request with what the source answered. -/
structure Reply where
  request : Request
  result : Except ReadError Message

/-- Why a reply was dropped. -/
inductive StaleReply where
  /-- The reply is of a file that is no longer open. -/
  | supersededFile
  /-- The request is not the one in flight. -/
  | unknownRequest
  /-- The edge has reached the end of the file in the meantime. -/
  | foreclosedBoundary (edge : Edge)
  /-- No file is open. -/
  | closed
deriving DecidableEq, Repr

def StaleReply.message : StaleReply → String
  | .supersededFile => "response belongs to a file that is no longer open"
  | .unknownRequest => "response does not match the request in flight"
  | .foreclosedBoundary edge => edge.name ++ " boundary already reached"
  | .closed => "no file is open"

end LogPager
