import LogPager.Yaml.Scalar

/-!
# Documents

A document is read as one mapping of scalars, in lines or in braces.  Reading
goes from left to right and stops at the first collection inside the mapping
or where the text cannot go on.  What was read before that point is kept.
-/

namespace LogPager.Yaml

/-- A value of an entry.  Of a collection, and of a value that cannot be read,
only the place is kept. -/
inductive Node where
  | scalar (scalar : Scalar)
  | collection (place : Place)
  | fault (place : Place)
deriving DecidableEq, Repr

/-- The value that is not written. -/
def Node.missing (place : Place) : Node :=
  .scalar { place, plain := true, text := "" }

/-- A key with its value. -/
structure Entry where
  key : Scalar
  value : Node
deriving DecidableEq, Repr

/-- The entries of a mapping, and the place where reading failed. -/
structure Mapping where
  entries : List Entry := []
  fault : Option Place := none
deriving DecidableEq, Repr

/-- What a document holds. -/
inductive Document where
  | scalar (scalar : Scalar)
  /-- A collection that is no mapping. -/
  | collection (place : Place)
  | mapping (mapping : Mapping)
  | fault (place : Place)
deriving DecidableEq, Repr

namespace Mapping

/-- The mapping that stops at a place without an entry. -/
def stopAt (place : Place) : Mapping :=
  { fault := some place }

/-- The mapping after its first entry, unless the value of that entry is no
scalar and reading stops there. -/
def after (entry : Entry) (rest : Mapping) : Mapping :=
  match entry.value with
  | .scalar _ => { rest with entries := entry :: rest.entries }
  | .collection _ | .fault _ => { entries := [entry] }

end Mapping

/-- Whether a colon that ends a key stands here, in a line. -/
def isColonOn (line : Nat) : List Mark → Bool
  | mark :: rest =>
      mark.char == ':' && mark.place.line == line && endsHere rest
  | [] => false

/-- Whether a collection begins here that is no mapping in lines. -/
def beginsCollection : List Mark → Bool
  | mark :: rest =>
      mark.char == '[' || mark.char == '\x7b' ||
        (mark.char == '-' && endsHere rest)
  | [] => false

/-- The next content without the tag and the anchor before it. -/
def nextNode (text : List Mark) : List Mark :=
  let content := nextContent text
  match content with
  | mark :: _ =>
      if mark.char = '!' || mark.char = '&' then
        nextContent (skipProperties false content)
      else content
  | [] => []

/-- The place of a value that only tabs divide from its colon, which is
refused for values that begin like a word. -/
def tabbedWord? (afterColon : List Mark) : Option Place :=
  let gap := afterColon.takeWhile fun mark => isSpace mark.char
  match afterColon.drop gap.length with
  | mark :: _ =>
      if !gap.isEmpty && (gap.all fun mark => mark.char == '\t') &&
          (mark.char.isAlphanum || mark.char == '_' || mark.char == '-') then
        some mark.place
      else none
  | [] => none

/-- An entry with the value that was read, and what follows.  A value that
cannot be read ends the text. -/
def entryOf (key : Scalar) (value : Except Place (Node × List Mark)) :
    Entry × List Mark :=
  match value with
  | .ok (value, rest) => ({ key, value }, rest)
  | .error place => ({ key, value := .fault place }, [])

/-- Read a scalar below its key; it may turn out to be the first key of a
mapping. -/
def readBelow (column : Nat) (text : List Mark) :
    Except Place (Node × List Mark) := do
  let (scalar, rest) ← readScalar (.beyond column) text
  if isColonOn scalar.place.line (nextContent rest) then
    return (.collection scalar.place, rest)
  return (.scalar scalar, rest)

/-- Read the value of a key at a column; the value stands behind the colon, or
in the lines below and further right. -/
def readLineValue (column : Nat) (colon : Place) (afterColon : List Mark) :
    Except Place (Node × List Mark) := do
  if let some place := tabbedWord? afterColon then .error place
  let content := nextContent afterColon
  match content with
  | [] => return (.missing colon, [])
  | first :: _ =>
      let behind := first.place.line == colon.line
      if !behind && first.place.column ≤ column then
        let listed := first.place.column == column &&
          beginsCollection content && first.char == '-'
        return (if listed then .collection first.place else .missing colon,
          content)
      let text := nextNode afterColon
      match text with
      | [] => return (.missing colon, [])
      | mark :: _ =>
          if mark.place.line != colon.line && mark.place.column ≤ column then
            return (.missing colon, text)
          if beginsCollection text then return (.collection mark.place, text)
          if mark.place.line == colon.line then
            let (scalar, rest) ← readScalar (.beyond column) text
            return (.scalar scalar, rest)
          readBelow column text

/-- Read an entry whose key begins here, at a column.  `finish` is the end of
the document. -/
def readLineEntry (column : Nat) (finish : Place) (text : List Mark) :
    Except Place (Entry × List Mark) := do
  let (key, rest) ← readScalar (.beyond column) text
  let content := nextContent rest
  if isColonOn key.place.line content then
    match content with
    | colon :: afterColon =>
        return entryOf key (readLineValue column colon.place afterColon)
    | [] => .error finish
  else .error (content.head?.elim finish (·.place))

def lineEntries (column : Nat) (finish : Place) (text : List Mark) : Mapping :=
  match nextContent text with
  | [] => {}
  | first :: rest =>
      let content := first :: rest
      if isDocumentEdge content then {}
      else if first.place.column ≠ column then .stopAt first.place
      else
        match readLineEntry column finish content with
        | .error place => .stopAt place
        | .ok (entry, rest) =>
            if _shorter : rest.length < text.length then
              (lineEntries column finish rest).after entry
            else .stopAt first.place
termination_by text.length

def readBraceValue (colon : Place) (afterColon : List Mark) :
    Except Place (Node × List Mark) := do
  let text := nextNode afterColon
  match text with
  | [] => return (.missing colon, [])
  | mark :: _ =>
      if mark.char == ',' || mark.char == '\x7d' then
        return (.missing colon, text)
      if mark.char == '[' || mark.char == '\x7b' then
        return (.collection mark.place, text)
      let (scalar, rest) ← readScalar .braces text
      return (.scalar scalar, rest)

/-- Read an entry in braces; a key alone has no value. -/
def readBraceEntry (text : List Mark) :
    Except Place (Entry × List Mark) := do
  let (key, rest) ← readScalar .braces text
  match nextContent rest with
  | colon :: afterColon =>
      if colon.char = ':' then
        return entryOf key (readBraceValue colon.place afterColon)
      return ({ key, value := .missing key.place }, colon :: afterColon)
  | [] => return ({ key, value := .missing key.place }, [])

/-- Read the entries between braces.  What follows the closing brace comes with
them; without one the fault is at the opening brace. -/
def braceEntries (opening : Place) (text : List Mark) : Mapping × List Mark :=
  match nextContent text with
  | [] => (.stopAt opening, [])
  | first :: rest =>
      if first.char = '\x7d' then ({}, rest)
      else
        match readBraceEntry (first :: rest) with
        | .error place => (.stopAt place, [])
        | .ok (entry, rest) =>
            match nextContent rest with
            | [] => ((Mapping.stopAt opening).after entry, [])
            | divider :: rest =>
                if divider.char = '\x7d' then (Mapping.after entry {}, rest)
                else if divider.char = ',' then
                  if _shorter : rest.length < text.length then
                    let (mapping, rest) := braceEntries opening rest
                    (mapping.after entry, rest)
                  else (.stopAt first.place, [])
                else ((Mapping.stopAt divider.place).after entry, [])
termination_by text.length

/-- Nothing but the end of a document may follow a mapping in braces. -/
def closeBraces (mapping : Mapping) (rest : List Mark) : Mapping :=
  match mapping.fault, nextContent rest with
  | none, mark :: rest =>
      if isDocumentEdge (mark :: rest) then mapping
      else { mapping with fault := some mark.place }
  | _, _ => mapping

/-- Read a document whose content begins here.  In the line of its separator
no mapping in lines may begin. -/
def readContent (finish : Place) (separatorLine : Nat) (content : List Mark) :
    Document :=
  match content with
  | [] => .scalar { place := finish, plain := true, text := "" }
  | first :: rest =>
      if isDocumentEdge content then
        .scalar { place := first.place, plain := true, text := "" }
      else if first.char = '\x7b' then
        let (mapping, rest) := braceEntries first.place rest
        .mapping (closeBraces mapping rest)
      else if beginsCollection content then .collection first.place
      else
        match readScalar (.beyond 0) content with
        | .error place => .fault place
        | .ok (scalar, rest) =>
            if first.place.line ≠ separatorLine &&
                isColonOn first.place.line (nextContent rest) then
              .mapping (lineEntries first.place.column finish content)
            else .scalar scalar

/-- The place where a text ends: the start of the line after the last one that
is not empty. -/
def finishOf (marked : List Mark) : Place :=
  match marked.getLast? with
  | none => {}
  | some last =>
      if last.place.column = 1 then last.place
      else { line := last.place.line + 1, column := 1 }

def Document.read (text : String) : Document :=
  let marked := marks text
  let finish := finishOf marked
  let content := nextContent marked
  if isSeparator '-' content then
    readContent finish (content.head?.elim 0 (·.place.line))
      (nextContent (content.drop 3))
  else readContent finish 0 content

end LogPager.Yaml
