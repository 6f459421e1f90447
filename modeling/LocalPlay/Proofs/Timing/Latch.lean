import LocalPlay.Timing.Latch

/-!
# What a call finds at its latches

Raising and lowering a latch leaves the others alone. A call that looks at its latches finds the
first one that is raised, with none before it, and lowers at most that one; if its time is over it
has found none.
-/

namespace LocalPlay.Timing.Latches

variable {κ : Type} [DecidableEq κ] (l : Latches κ)

@[simp] theorem isRaised_lower (name other : κ) :
    (l.lower name).isRaised other = (decide (other ≠ name) && l.isRaised other) := by
  rw [Bool.eq_iff_iff]
  simp only [isRaised, lower, decide_eq_true_eq, List.mem_filter, Bool.and_eq_true]
  exact And.comm

@[simp] theorem isRaised_raise (name other : κ) :
    (l.raise name).isRaised other = (decide (other = name) || l.isRaised other) := by
  have hlower := l.isRaised_lower name other
  rw [Bool.eq_iff_iff] at hlower ⊢
  simp only [isRaised, raise, decide_eq_true_eq, List.mem_cons, Bool.and_eq_true,
    Bool.or_eq_true] at hlower ⊢
  rw [hlower]
  by_cases hname : other = name
  · simp only [hname, true_or]
  · simp only [hname, ne_eq, not_false_eq_true, true_and]

theorem isRaised_foldl_lower {names : List κ} {other : κ} (hother : other ∉ names) :
    (names.foldl lower l).isRaised other = l.isRaised other := by
  induction names generalizing l with
  | nil => rfl
  | cons name names ih =>
    rw [List.mem_cons, not_or] at hother
    obtain ⟨hname, hnames⟩ := hother
    rw [List.foldl_cons, ih _ hnames, isRaised_lower, decide_eq_true hname, Bool.true_and]

variable {l}

theorem glance_fired {l' : Latches κ} {once : κ → Bool} {awaited : List κ} {timeOver : Bool}
    {index : Nat} (hglance : l.glance once awaited timeOver = (.fired index, l')) :
    ∃ name, awaited[index]? = some name ∧ l.isRaised name = true ∧
      (∀ i other, i < index → awaited[i]? = some other → l.isRaised other = false) ∧
      l' = if once name then l.lower name else l := by
  rw [glance] at hglance
  cases hfind : awaited.findIdx? l.isRaised with
  | none =>
    rw [hfind] at hglance
    cases timeOver
    all_goals exact nomatch hglance
  | some found =>
    obtain ⟨hlength, hraised, hbefore⟩ := List.findIdx?_eq_some_iff_getElem.mp hfind
    have hname := List.getElem?_eq_getElem hlength
    rw [hfind] at hglance
    dsimp only at hglance
    rw [hname] at hglance
    obtain ⟨rfl, rfl⟩ := hglance
    refine ⟨_, hname, hraised, fun i other hi hother => ?_, rfl⟩
    obtain ⟨_, rfl⟩ := List.getElem?_eq_some_iff.mp hother
    exact Bool.not_eq_true _ ▸ hbefore i hi

/-- To be let through raises no latch. -/
theorem isRaised_of_glance_fired {l' : Latches κ} {once : κ → Bool} {awaited : List κ}
    {timeOver : Bool} {index : Nat} (hglance : l.glance once awaited timeOver = (.fired index, l'))
    {name : κ} (hraised : l'.isRaised name = true) : l.isRaised name = true := by
  obtain ⟨_, -, -, -, hlast⟩ := glance_fired hglance
  rw [hlast] at hraised
  split at hraised
  · rw [isRaised_lower, Bool.and_eq_true] at hraised
    exact hraised.2
  · exact hraised

/-- A call that is not let through has found no latch raised. -/
theorem glance_not_fired {once : κ → Bool} {awaited : List κ} {timeOver : Bool}
    (hfired : ∀ index, (l.glance once awaited timeOver).1 ≠ .fired index) :
    (∀ name ∈ awaited, l.isRaised name = false) ∧
      l.glance once awaited timeOver = (if timeOver then .timedOut else .waiting, l) := by
  rw [glance] at hfired ⊢
  cases hfind : awaited.findIdx? l.isRaised with
  | none => exact ⟨List.findIdx?_eq_none_iff.mp hfind, rfl⟩
  | some index =>
    obtain ⟨hlength, _⟩ := List.findIdx?_eq_some_iff_getElem.mp hfind
    refine absurd ?_ (hfired index)
    rw [hfind]
    dsimp only
    rw [List.getElem?_eq_getElem hlength]

theorem glance_timedOut {l' : Latches κ} {once : κ → Bool} {awaited : List κ} {timeOver : Bool}
    (hglance : l.glance once awaited timeOver = (.timedOut, l')) :
    (∀ name ∈ awaited, l.isRaised name = false) ∧ timeOver = true ∧ l' = l := by
  obtain ⟨hnone, heq⟩ := glance_not_fired (l := l) fun index => by rw [hglance]; exact nofun
  rw [hglance] at heq
  cases timeOver with
  | false => cases heq
  | true =>
    cases heq
    exact ⟨hnone, rfl, rfl⟩

theorem glance_waiting {l' : Latches κ} {once : κ → Bool} {awaited : List κ} {timeOver : Bool}
    (hglance : l.glance once awaited timeOver = (.waiting, l')) :
    (∀ name ∈ awaited, l.isRaised name = false) ∧ timeOver = false := by
  obtain ⟨hnone, heq⟩ := glance_not_fired (l := l) fun index => by rw [hglance]; exact nofun
  rw [hglance] at heq
  cases timeOver with
  | false => exact ⟨hnone, rfl⟩
  | true => cases heq

end LocalPlay.Timing.Latches
