import LocalPlay.Timing.Schedule

/-!
# Through time

On its way to a target the clock of a machine stops at one timer after the other. What is to hold
of the whole way holds if it does when no timer is left before the target, and if every stop that is
followed by such a way makes one with it. A machine that has fewer timers left after every stop
meets all of them.
-/

namespace LocalPlay.Timing.Machine

variable {σ ω : Type} {m : Machine σ ω}

/-- `R` is to hold of where the clock leaves from and what comes of it. -/
theorem advanceWithin_of_stops {target : Nat} {P : σ → Prop} {R : σ → σ × List ω → Prop}
    (timers : σ → Nat) (hdone : ∀ s, timers s = 0 → m.due? s = none)
    (hreach : ∀ s, P s → (∀ time, m.due? s = some time → target < time) →
      R s (m.reach target s, []))
    (hstop : ∀ s time, P s → m.due? s = some time → time ≤ target →
      P (m.settle (m.reach time s)).1 ∧ timers (m.settle (m.reach time s)).1 < timers s ∧
        ∀ last, R (m.settle (m.reach time s)).1 last →
          R s (last.1, (m.settle (m.reach time s)).2 ++ last.2))
    {stops : Nat} {s : σ} (hs : P s) (hstops : timers s ≤ stops) :
    R s (m.advanceWithin target stops s) := by
  induction stops generalizing s with
  | zero =>
    refine hreach s hs fun time hdue => ?_
    rw [hdone s (Nat.le_zero.mp hstops)] at hdue
    exact nomatch hdue
  | succ stops ih =>
    rw [advanceWithin]
    cases hdue : m.due? s with
    | none => exact hreach s hs fun time hdue' => nomatch hdue.symm.trans hdue'
    | some time =>
      dsimp only
      split
      · next hbeyond =>
        refine hreach s hs fun other hdue' => ?_
        obtain rfl := Option.some.inj (hdue.symm.trans hdue')
        exact hbeyond
      · next hwithin =>
        obtain ⟨hnext, hless, hjoin⟩ := hstop s time hs hdue (Nat.le_of_not_lt hwithin)
        exact hjoin _ (ih hnext (Nat.le_of_lt_succ (Nat.lt_of_lt_of_le hless hstops)))

end LocalPlay.Timing.Machine
