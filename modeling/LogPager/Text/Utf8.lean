/-!
# Lossy UTF-8

Bytes are read as UTF-8 by a machine that remembers the sequence it is inside.
A byte that cannot continue the sequence ends it with one replacement
character and is then read afresh, so every maximal invalid beginning of a
sequence becomes exactly one U+FFFD.
-/

namespace LogPager.Text.Utf8

/-- The character written in place of undecodable bytes. -/
def replacement : Char := '\uFFFD'

/-- What the bytes read so far leave open. -/
inductive Pending where
  | nothing
  /-- `code` is read, `missing` bytes are to come, and the next of them lies
  between `least` and `greatest`. -/
  | sequence (code missing : Nat) (least greatest : UInt8)
deriving DecidableEq, Repr

/-- Read a byte that begins a sequence: the characters it completes and what
it leaves open. -/
def opening (byte : UInt8) : List Char × Pending :=
  if byte < 0x80 then ([Char.ofNat byte.toNat], .nothing)
  else if byte < 0xC2 then ([replacement], .nothing)
  else if byte < 0xE0 then ([], .sequence (byte.toNat - 0xC0) 1 0x80 0xBF)
  else if byte < 0xF0 then
    ([], .sequence (byte.toNat - 0xE0) 2
      (if byte = 0xE0 then 0xA0 else 0x80) (if byte = 0xED then 0x9F else 0xBF))
  else if byte < 0xF5 then
    ([], .sequence (byte.toNat - 0xF0) 3
      (if byte = 0xF0 then 0x90 else 0x80) (if byte = 0xF4 then 0x8F else 0xBF))
  else ([replacement], .nothing)

/-- Read one byte. -/
def step (pending : Pending) (byte : UInt8) : List Char × Pending :=
  match pending with
  | .nothing => opening byte
  | .sequence code missing least greatest =>
      if least ≤ byte ∧ byte ≤ greatest then
        let code := 64 * code + (byte.toNat - 0x80)
        if missing ≤ 1 then ([Char.ofNat code], .nothing)
        else ([], .sequence code (missing - 1) 0x80 0xBF)
      else
        let (characters, next) := opening byte
        (replacement :: characters, next)

/-- The character owed when the bytes end. -/
def Pending.finish : Pending → List Char
  | .nothing => []
  | .sequence .. => [replacement]

/-- Decode from the given point on; `decoded` is what precedes, newest first. -/
def run (decoded : List Char) (pending : Pending) : List UInt8 → List Char
  | [] => (pending.finish.reverse ++ decoded).reverse
  | byte :: rest =>
      let (characters, next) := step pending byte
      run (characters.reverse ++ decoded) next rest

/-- The text of the bytes, with U+FFFD for what is not UTF-8. -/
def decodeLossy (bytes : List UInt8) : List Char :=
  run [] .nothing bytes

/-- The text of the bytes, none unless all of them are UTF-8. -/
def decode? (bytes : List UInt8) : Option String :=
  String.fromUTF8? ⟨bytes.toArray⟩

def encode (text : String) : List UInt8 :=
  text.toUTF8.toList

end LogPager.Text.Utf8
