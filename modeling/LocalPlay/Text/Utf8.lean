import LocalPlay.Bytes

/-!
# Text as bytes

`encode` writes the characters of a text in UTF-8. `read` goes over bytes that may be anything: it
yields every character it finds, and one defect for each longest run of bytes that starts like a
character and does not go on like one. `lossy` shows defects as the replacement character; `strict?`
refuses a text that has any.

The reader is a small automaton. Between two bytes it either stands between characters or knows the
bits read so far, how many bytes are still owed, and between which limits the next of them must lie;
the limits keep out overlong forms, surrogates and numbers past the last code point.
-/

namespace LocalPlay.Text.Utf8

def encode (text : String) : Bytes :=
  text.toList.flatMap String.utf8EncodeChar

/-- A character that is not complete yet. -/
structure Begun where
  bits : Nat
  owed : Nat
  low : Nat
  high : Nat
  deriving DecidableEq

/-- Where the reader stands after some bytes. -/
abbrev State := Option Begun

/-- Reads a byte that starts a character. -/
def start (byte : Nat) : State × List (Option Char) :=
  if byte < 0x80 then (none, [some (Char.ofNat byte)])
  else if byte < 0xC2 then (none, [none])
  else if byte < 0xE0 then (some ⟨byte - 0xC0, 1, 0x80, 0xBF⟩, [])
  else if byte = 0xE0 then (some ⟨0, 2, 0xA0, 0xBF⟩, [])
  else if byte = 0xED then (some ⟨0xD, 2, 0x80, 0x9F⟩, [])
  else if byte < 0xF0 then (some ⟨byte - 0xE0, 2, 0x80, 0xBF⟩, [])
  else if byte = 0xF0 then (some ⟨0, 3, 0x90, 0xBF⟩, [])
  else if byte < 0xF4 then (some ⟨byte - 0xF0, 3, 0x80, 0xBF⟩, [])
  else if byte = 0xF4 then (some ⟨4, 3, 0x80, 0x8F⟩, [])
  else (none, [none])

/-- Reads one byte. One that cannot continue the character begun makes that a defect and starts
anew. -/
def step (state : State) (byte : Nat) : State × List (Option Char) :=
  match state with
  | none => start byte
  | some begun =>
    if begun.low ≤ byte ∧ byte ≤ begun.high then
      let bits := begun.bits * 64 + (byte - 0x80)
      if begun.owed = 1 then
        (none, [some (Char.ofNat bits)])
      else
        (some ⟨bits, begun.owed - 1, 0x80, 0xBF⟩, [])
    else
      let (state, found) := start byte
      (state, none :: found)

/-- Characters and defects from where the reader stands on. -/
def readFrom : State → Bytes → List (Option Char)
  | none, [] => []
  | some _, [] => [none]
  | state, byte :: rest =>
    let (state, found) := step state byte.toNat
    found ++ readFrom state rest

def read (bytes : Bytes) : List (Option Char) :=
  readFrom none bytes

def replacement : Char := Char.ofNat 0xFFFD

def lossy (bytes : Bytes) : String :=
  String.ofList ((read bytes).map (·.getD replacement))

def strict? (bytes : Bytes) : Option (List Char) :=
  (read bytes).mapM id

end LocalPlay.Text.Utf8
