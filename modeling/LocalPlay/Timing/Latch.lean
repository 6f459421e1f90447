/-!
# Latches

Events of the protocol reach the calls that wait for them through latches. A latch is raised by the
event and stays so until it is lowered. Some latches are lowered by the call they let through: such
a latch lets through one call each time it is raised. A call may wait for several latches; the first
of them that is raised counts.
-/

namespace LocalPlay.Timing

/-- Latches with names in `κ`; those in the list are raised. -/
structure Latches (κ : Type) where
  raised : List κ := []
  deriving DecidableEq

namespace Latches

variable {κ : Type} [DecidableEq κ]

def isRaised (l : Latches κ) (name : κ) : Bool :=
  name ∈ l.raised

def lower (l : Latches κ) (name : κ) : Latches κ :=
  ⟨l.raised.filter (· ≠ name)⟩

def raise (l : Latches κ) (name : κ) : Latches κ :=
  ⟨name :: (l.lower name).raised⟩

/-- What a call finds that waits for latches. -/
inductive Glance where
  /-- The first awaited latch that is raised stands at this place of the list. -/
  | fired (index : Nat)
  | timedOut
  | waiting
  deriving DecidableEq, Repr

/-- Looks for the first raised latch among those awaited, and lowers it if it lets through only one
call. A raised latch counts even when the time is over. -/
def glance (l : Latches κ) (once : κ → Bool) (awaited : List κ) (timeOver : Bool) :
    Glance × Latches κ :=
  match awaited.findIdx? l.isRaised with
  | some index =>
    match awaited[index]? with
    | some name => (.fired index, if once name then l.lower name else l)
    | none => (.fired index, l)
  | none => (if timeOver then .timedOut else .waiting, l)

end Latches

end LocalPlay.Timing
