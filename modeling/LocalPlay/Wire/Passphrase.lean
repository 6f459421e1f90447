import LocalPlay.Text.Quoted
import LocalPlay.Text.Utf8
import LocalPlay.Wire.Message

/-!
# The passphrase field

A passphrase limits which networks a player sees. On the wire it is a zero padded field of 128 bytes
in UTF-8. A longer text is cut after the last whole character that fits, so the field never ends in
half a character; `passphraseText` reads the field back up to its first zero.
-/

namespace LocalPlay.Wire

/-- The longest start of `cs` made of whole characters whose encoding has at most `room` bytes. -/
def charsWithin (room : Nat) : List Char → List Char
  | [] => []
  | c :: rest => if c.utf8Size ≤ room then c :: charsWithin (room - c.utf8Size) rest else []

def passphraseField (text : String) : Block passphraseSize :=
  Block.ofBytes (Text.Utf8.encode (String.ofList (charsWithin passphraseSize text.toList)))

def passphraseText (field : Block passphraseSize) : String :=
  Text.Utf8.lossy field.bytes.beforeNul

/-- How the message shows itself to people. -/
def passphraseDebug (field : Block passphraseSize) : String :=
  "PassphraseMessage \x7b passphrase: " ++ Text.debug (passphraseText field) ++ " \x7d"

/-- The passphrase fits its field as a whole. -/
def passphraseFits (text : String) : Bool :=
  text.utf8ByteSize ≤ passphraseSize

/-- Said of a passphrase that does not fit. -/
def passphraseTooLong : String :=
  s!"Passphrase is longer than {passphraseSize} bytes"

end LocalPlay.Wire
