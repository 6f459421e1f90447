import LocalPlay.Text.Hex
import LocalPlay.Text.Printable

/-!
# Quoted text

Two ways to put a text between double quotes. `debug` is for people: it escapes quotes, backslashes,
and every character without a picture of its own. `json` is for machines: it escapes quotes,
backslashes and control characters and leaves all else as it is.
-/

namespace LocalPlay.Text

/-- What stands for a character inside the quotes of `debug`. -/
def debugChar (c : Char) : String :=
  if c = '\x00' then "\\0"
  else if c = '\t' then "\\t"
  else if c = '\n' then "\\n"
  else if c = '\r' then "\\r"
  else if c = '"' then "\\\""
  else if c = '\\' then "\\\\"
  else if isPrintable c then c.toString
  else "\\u\x7b" ++ hexDigits 1 c.toNat ++ "\x7d"

/-- What stands for a character inside the quotes of `json`. -/
def jsonChar (c : Char) : String :=
  if c = '"' then "\\\""
  else if c = '\\' then "\\\\"
  else if c = '\n' then "\\n"
  else if c = '\r' then "\\r"
  else if c = '\t' then "\\t"
  else if c = '\x08' then "\\b"
  else if c = '\x0c' then "\\f"
  else if c.toNat < 0x20 then "\\u" ++ hexDigits 4 c.toNat
  else c.toString

def quoted (inside : Char → String) (text : String) : String :=
  "\"" ++ String.join (text.toList.map inside) ++ "\""

def debug (text : String) : String := quoted debugChar text

def json (text : String) : String := quoted jsonChar text

end LocalPlay.Text
