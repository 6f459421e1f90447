/-!
# Schedules

Everything here that takes time is a machine: it has work that is ready, which it does one turn at a
time, and timers, which make work ready when the clock reaches them. Between two things that happen
to a machine from outside it is settled, that is, given turns until nothing is ready. When time
passes, the clock stops at every timer on its way, and the machine settles there.

A machine says how many turns its ready work can take at most, and how many timers it can meet. Both
bounds are there to make the runs total; they never cut a run short.
-/

namespace LocalPlay.Timing

/-- A machine with states `σ` that tells what happens in `ω`. -/
structure Machine (σ ω : Type) where
  /-- Does the next piece of ready work, if there is one. -/
  turn : σ → Option (σ × List ω)
  /-- At least as many turns as are needed to settle. -/
  turns : σ → Nat
  /-- The next timer. -/
  due? : σ → Option Nat
  /-- At least as many stops of the clock as can still come. -/
  stops : σ → Nat
  /-- Sets the clock and makes ready what was waiting for that time. -/
  reach : Nat → σ → σ

namespace Machine

variable {σ ω : Type}

def settleWithin (m : Machine σ ω) : Nat → σ → σ × List ω
  | 0, s => (s, [])
  | turns + 1, s =>
    match m.turn s with
    | none => (s, [])
    | some (s, told) =>
      let (s, more) := m.settleWithin turns s
      (s, told ++ more)

/-- Gives the machine turns until nothing is ready. -/
def settle (m : Machine σ ω) (s : σ) : σ × List ω :=
  m.settleWithin (m.turns s) s

def advanceWithin (m : Machine σ ω) (target : Nat) : Nat → σ → σ × List ω
  | 0, s => (m.reach target s, [])
  | stops + 1, s =>
    match m.due? s with
    | none => (m.reach target s, [])
    | some time =>
      if target < time then
        (m.reach target s, [])
      else
        let (s, told) := m.settle (m.reach time s)
        let (s, more) := m.advanceWithin target stops s
        (s, told ++ more)

/-- Lets the clock run to `target`, past every timer on the way and those due at `target` itself. -/
def advance (m : Machine σ ω) (target : Nat) (s : σ) : σ × List ω :=
  m.advanceWithin target (m.stops s) s

end Machine

end LocalPlay.Timing
