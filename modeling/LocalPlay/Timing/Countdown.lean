/-!
# Countdowns

A countdown does something once nobody has refreshed it for a while. Refreshing starts it anew,
disabling stops it; at most one deadline is pending at any time. What was to be done is under way
from the moment when somebody finds the deadline reached, and neither can take it back then; until
then both can, also when the deadline has come.
-/

namespace LocalPlay.Timing

structure Countdown where
  duration : Nat
  deadline : Option Nat := none
  deriving DecidableEq

namespace Countdown

def refresh (c : Countdown) (now : Nat) : Countdown :=
  { c with deadline := some (now + c.duration) }

def disable (c : Countdown) : Countdown :=
  { c with deadline := none }

/-- The deadline has come. -/
def isOver (c : Countdown) (now : Nat) : Bool :=
  c.deadline.any (· ≤ now)

/-- Somebody looks when the clock stands at `now`: true if the countdown ends here. -/
def reach (c : Countdown) (now : Nat) : Bool × Countdown :=
  if c.isOver now then (true, c.disable) else (false, c)

end Countdown

end LocalPlay.Timing
