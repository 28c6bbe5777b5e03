/-!
# Paths as text

A path is a text of names between slashes.  Paths are joined and cut as they
are written; nothing is looked up here.
-/

namespace LogPager.Path

/-- The texts between slashes. -/
def splitFrom (name : List Char) : List Char → List (List Char)
  | [] => [name.reverse]
  | '/' :: rest => name.reverse :: splitFrom [] rest
  | character :: rest => splitFrom (character :: name) rest

/-- The names of a path.  Repeated slashes count once, and a slash at the end
counts as a dot, because it asks for a folder. -/
def names (path : List Char) : List (List Char) :=
  let parts := splitFrom [] path
  let named := parts.filter fun part => !part.isEmpty
  if 1 < parts.length ∧ parts.getLast? = some [] then named ++ [['.']]
  else named

def join (base name : String) : String :=
  if name.toList.head? = some '/' || base = "" then name
  else if base.toList.getLast? = some '/' then base ++ name
  else base ++ "/" ++ name

/-- Drop slashes, and dots after slashes, from the end of a path that is given
backwards. -/
def dropTrailing : List Char → List Char
  | '/' :: rest => dropTrailing rest
  | '.' :: '/' :: rest => dropTrailing rest
  | rest => rest

/-- Drop slashes, and dots before slashes, from the start of a path. -/
def dropLeading : List Char → List Char
  | '/' :: rest => dropLeading rest
  | '.' :: '/' :: rest => dropLeading rest
  | rest => rest

/-- The path without what follows its last name. -/
def trimEnd (path : List Char) : List Char :=
  (dropTrailing path.reverse).reverse

/-- A path with the home folder in place of a tilde that stands alone at its
start. -/
def expandHome (home path : String) : String :=
  match path.toList with
  | '~' :: rest =>
      match rest with
      | [] | '/' :: _ =>
          home ++ "/" ++ String.ofList (dropLeading (trimEnd rest))
      | _ => path
  | _ => path

/-- What stands before each slash of a path that is given backwards. -/
def beforeSlashes : List Char → List (List Char)
  | [] => []
  | '/' :: rest => dropTrailing rest :: beforeSlashes rest
  | _ :: rest => beforeSlashes rest

/-- A path and all paths above it, the nearest first.  The path itself stays
as it is written. -/
def ancestors (path : List Char) : List (List Char) :=
  let above := beforeSlashes (dropTrailing path.reverse)
  path :: (above.eraseDups.map List.reverse)

end LogPager.Path
