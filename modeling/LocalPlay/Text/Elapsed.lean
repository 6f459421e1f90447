/-!
# Spans of time in words

A span is a whole number of milliseconds. From a second on it is shown in seconds with as many
decimals as it needs, below that in milliseconds; no time at all is zero nanoseconds.
-/

namespace LocalPlay.Text

/-- The thousandths after the point, without the zeros at the end. -/
def decimals (thousandths : Nat) : String :=
  if thousandths = 0 then ""
  else if thousandths % 100 = 0 then s!".{thousandths / 100}"
  else if thousandths % 10 = 0 then s!".{thousandths / 100}{thousandths / 10 % 10}"
  else s!".{thousandths / 100}{thousandths / 10 % 10}{thousandths % 10}"

def elapsed (millis : Nat) : String :=
  if millis = 0 then "0ns"
  else if millis < 1000 then s!"{millis}ms"
  else s!"{millis / 1000}{decimals (millis % 1000)}s"

end LocalPlay.Text
