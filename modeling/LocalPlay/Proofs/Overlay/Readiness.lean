import LocalPlay.Proofs.Overlay.Visit
import LocalPlay.Proofs.Timing.Schedule

/-!
# When a guest is ready

Whoever waits for the address of a guest is told the latest address at the first moment at which
there is one, and is told that there is none only when its own time is over and nothing was assigned
before. That no caller is forgotten rests on two things. Nobody who is not ready has anything to
find, which is part of `Kept`. And a visit settles, and gets as far through time as it is to, past
every deadline on the way.
-/

namespace LocalPlay.Overlay

open Net Wire Timing

namespace Visit

variable {endpoint : Endpoint} {log : Log} {v t : Visit}

/-- From a run with this log the visit comes to `t`. Nothing is asked on the way, and this is told.
-/
def Reaches (endpoint : Endpoint) (log : Log) (told : List Notice) (t : Visit) : Prop :=
  ∃ more, Run endpoint (log ++ more) t ∧ more.map (·.2) = told.map .told

namespace Reaches

theorem refl (h : Run endpoint log v) : Reaches endpoint log [] v :=
  ⟨[], by simpa using h, rfl⟩

theorem trans {told more : List Notice} (h : Reaches endpoint log told v)
    (hmore : ∀ {log}, Run endpoint log v → Reaches endpoint log more t) :
    Reaches endpoint log (told ++ more) t := by
  obtain ⟨first, hrun, hfirst⟩ := h
  obtain ⟨second, hlast, hsecond⟩ := hmore hrun
  refine ⟨first ++ second, by simpa using hlast, ?_⟩
  rw [List.map_append, List.map_append, hfirst, hsecond]

end Reaches

theorem Turn.lessens {told : List Notice} (h : v.Turn t told) :
    t.clock = v.clock ∧ t.waiters.Sublist v.waiters ∧ t.ready.length < v.ready.length := by
  cases h with
  | waits hready =>
    rw [hready]
    exact ⟨rfl, .refl _, Nat.lt_succ_self _⟩
  | answered hready =>
    rw [hready]
    exact ⟨rfl, List.filter_sublist, Nat.lt_succ_self _⟩

theorem settleWithin_reaches {turns : Nat} (h : Run endpoint log v)
    (hturns : v.ready.length ≤ turns) :
    Reaches endpoint log (machine.settleWithin turns v).2 (machine.settleWithin turns v).1 ∧
      (machine.settleWithin turns v).1.ready = [] ∧
      (machine.settleWithin turns v).1.clock = v.clock ∧
      (machine.settleWithin turns v).1.waiters.Sublist v.waiters := by
  induction turns generalizing log v with
  | zero => exact ⟨.refl h, List.eq_nil_of_length_eq_zero (Nat.le_zero.mp hturns), rfl, .refl _⟩
  | succ turns ih =>
    rw [Machine.settleWithin]
    cases hturn : machine.turn v with
    | none => exact ⟨.refl h, turn_eq_none hturn, rfl, .refl _⟩
    | some next =>
      obtain ⟨t, told⟩ := next
      obtain ⟨hclock, hwaiters, hready⟩ := (turn_cases hturn).lessens
      have hfirst : Reaches endpoint log told t :=
        ⟨tell v.clock told, h.turn hturn, by simp [tell]⟩
      have hrest := ih (h.turn hturn) (by omega)
      refine ⟨hfirst.trans fun hnext => (ih hnext (by omega)).1, hrest.2.1, ?_, ?_⟩
      · exact hrest.2.2.1.trans hclock
      · exact hrest.2.2.2.trans hwaiters

/-- Whoever is ready, the visit settles, and nobody is ready then. -/
theorem settle_reaches (h : Run endpoint log v) :
    Reaches endpoint log (machine.settle v).2 (machine.settle v).1 ∧
      (machine.settle v).1.ready = [] ∧ (machine.settle v).1.clock = v.clock ∧
      (machine.settle v).1.waiters.Sublist v.waiters :=
  settleWithin_reaches h (Nat.le_succ _)

/-- In a settled visit whoever waits has nothing to find and has time left. -/
theorem Kept.settled (h : Kept endpoint log v) (hready : v.ready = []) {w : Waiter}
    (hw : w ∈ v.waiters) : v.guest.config = none ∧ v.clock < w.deadline := by
  have hlooks := (h.waits w hw).looks
  rw [hready] at hlooks
  exact hlooks.resolve_left List.not_mem_nil

theorem earliest_of_due? {time : Nat} (hdue : machine.due? v = some time) :
    (∃ w ∈ v.waiters, w.deadline = time) ∧ ∀ w ∈ v.waiters, time ≤ w.deadline := by
  obtain ⟨hmem, hleast⟩ := List.min?_eq_some_iff.mp hdue
  exact ⟨List.mem_map.mp hmem, fun w hw => hleast _ (List.mem_map_of_mem hw)⟩

/-- The clock gets somewhere before anyone's time is over. -/
theorem Run.reach_reaches (h : Run endpoint log v) (hready : v.ready = []) {target : Nat}
    (hclock : v.clock ≤ target) (hlater : ∀ time, machine.due? v = some time → target < time) :
    Reaches endpoint log [] (machine.reach target v) ∧ (machine.reach target v).ready = [] ∧
      (machine.reach target v).clock = target := by
  have hbefore : ∀ w ∈ v.waiters, target < w.deadline := by
    intro w hw
    cases hdue : machine.due? v with
    | none =>
      rw [List.map_eq_nil_iff.mp (List.min?_eq_none_iff.mp hdue)] at hw
      exact nomatch hw
    | some time => exact Nat.lt_of_lt_of_le (hlater time hdue) ((earliest_of_due? hdue).2 w hw)
  have hnobody : v.waiters.filter (·.deadline ≤ target) = [] := by simpa using hbefore
  refine ⟨.refl (h.pass target hready hclock fun w hw => Nat.le_of_lt (hbefore w hw)), ?_, rfl⟩
  show v.ready ++ (v.waiters.filter (·.deadline ≤ target)).map (·.id) = []
  rw [hready, hnobody]
  rfl

/-- The clock stops as someone's time is over, and one less waits when the visit has settled. -/
theorem Run.stop_reaches (h : Run endpoint log v) (hready : v.ready = []) {time : Nat}
    (hdue : machine.due? v = some time) :
    let stopped := machine.settle (machine.reach time v)
    Reaches endpoint log stopped.2 stopped.1 ∧ stopped.1.ready = [] ∧ stopped.1.clock = time ∧
      stopped.1.waiters.length < v.waiters.length := by
  obtain ⟨⟨first, hw, hdeadline⟩, hleast⟩ := earliest_of_due? hdue
  have hnow : v.clock ≤ time := hdeadline ▸ (h.kept.waits first hw).within
  obtain ⟨hreaches, hsettled, hclock, hsublist⟩ := settle_reaches (h.pass time hready hnow hleast)
  refine ⟨hreaches, hsettled, hclock, Nat.lt_of_not_le fun hmore => ?_⟩
  -- If all of them still waited, so would the one whose time is over.
  have hsame := hsublist.eq_of_length_le hmore
  obtain ⟨more, hrun, -⟩ := hreaches
  have hlate := (hrun.kept.settled hsettled (hsame ▸ hw)).2
  rw [hclock, hdeadline] at hlate
  exact Nat.lt_irrefl _ hlate

/-- However far the clock runs from a settled visit, it gets there, and the visit is settled then.
-/
theorem advance_reaches (h : Run endpoint log v) (hready : v.ready = []) {target : Nat}
    (hclock : v.clock ≤ target) :
    Reaches endpoint log (machine.advance target v).2 (machine.advance target v).1 ∧
      (machine.advance target v).1.ready = [] ∧ (machine.advance target v).1.clock = target := by
  refine Machine.advanceWithin_of_stops
    (P := fun v => (∃ log, Run endpoint log v) ∧ v.ready = [] ∧ v.clock ≤ target)
    (R := fun v last => ∀ log, Run endpoint log v → Reaches endpoint log last.2 last.1 ∧
      last.1.ready = [] ∧ last.1.clock = target)
    (·.waiters.length) ?_ ?_ ?_ ⟨⟨log, h⟩, hready, hclock⟩ (Nat.le_refl _) log h
  · intro v hnobody
    show (v.waiters.map (·.deadline)).min? = none
    rw [List.eq_nil_of_length_eq_zero hnobody]
    rfl
  · rintro v ⟨-, hready, hclock⟩ hlater log h
    exact h.reach_reaches hready hclock hlater
  · rintro v time ⟨⟨log, h⟩, hready, -⟩ hdue hwithin
    obtain ⟨hreaches, hsettled, hclock, hless⟩ := h.stop_reaches hready hdue
    obtain ⟨more, hrun, -⟩ := hreaches
    refine ⟨⟨⟨_, hrun⟩, hsettled, Nat.le_trans (Nat.le_of_eq hclock) hwithin⟩, hless,
      fun last hlast log h => ?_⟩
    refine ⟨(h.stop_reaches hready hdue).1.trans fun hnext => (hlast _ hnext).1, ?_⟩
    exact (hlast _ hrun).2

/-- A guest is asked for anything at any time, its callers have their turns in any order, and its
link may refuse what it likes. The guest always has the address that was assigned last, so that it
never loses one for nothing, and it confirms every address to its host once, whether or not that
goes through. Every call is answered once at most: with the latest address, at the first moment at
which there was both an address and the call, or without one just as its time is over, if nothing
was assigned before. Nobody who waits is past its time, and when nobody is ready, nobody waits who
could have an answer. The visit always settles, and gets as far through time as it is to. -/
theorem answered_as_soon_as_assigned (hrun : Run endpoint log v) :
    v.guest.config = latest log ∧
      (∀ before after, log = before ++ after → latest before ≠ none → latest log ≠ none) ∧
      confirmed log = (handled log).map (fun assigned => (.peer endpoint, assigned.2)) ∧
      (log.Pairwise fun earlier later => earlier.1 ≤ later.1) ∧
      (∀ before time id config after, log = before ++ (time, .told (.answered id config)) :: after →
        Answers before time id config) ∧
      (∀ id start timeout, (called log)[id]? = some (start, timeout) → Answered log id ∨
        v.clock ≤ start + timeout ∧
          (v.ready = [] → handled log = [] ∧ v.clock < start + timeout)) ∧
      (Reaches endpoint log (machine.settle v).2 (machine.settle v).1 ∧
        (machine.settle v).1.ready = [] ∧ (machine.settle v).1.clock = v.clock) ∧
      (v.ready = [] → ∀ target, v.clock ≤ target →
        Reaches endpoint log (machine.advance target v).2 (machine.advance target v).1 ∧
          (machine.advance target v).1.ready = [] ∧
          (machine.advance target v).1.clock = target) := by
  have h := hrun.kept
  obtain ⟨hreaches, hsettled, hclock, -⟩ := settle_reaches hrun
  refine ⟨h.config, ?_, h.confirmed, h.times, fun before time id config after hsplit =>
    h.answers before _ after hsplit id config rfl, ?_, ⟨hreaches, hsettled, hclock⟩,
    fun hready target htarget => advance_reaches hrun hready htarget⟩
  · rintro before after rfl hbefore hnone
    rw [latest_eq_none_iff, handled_append, List.append_eq_nil_iff] at hnone
    exact hbefore (latest_eq_none_iff.mpr hnone.1)
  · intro id start timeout hcalled
    have hbelow : id < v.calls := by
      rw [h.calls]
      exact (List.getElem?_eq_some_iff.mp hcalled).1
    refine (h.everyone id hbelow).imp_right ?_
    rintro ⟨w, hw, rfl⟩
    have hwaits := h.waits w hw
    obtain ⟨start', timeout', hcall, hdeadline, -⟩ := hwaits.call
    cases hcalled.symm.trans hcall
    rw [← hdeadline]
    refine ⟨hwaits.within, fun hready => ?_⟩
    obtain ⟨hnone, htime⟩ := h.settled hready hw
    exact ⟨h.handled_eq_nil hnone, htime⟩

/-- Of two calls one does not wait at all and is told that there is no address. The other waits
until one is assigned just as its time is over, and is told it, though the host cannot be reached.
-/
theorem answered_at_deadline :
    let endpoint : Endpoint := { ip := .v4 .zero, port := 7 }
    let config : OverlayConfig := ⟨1, 2⟩
    let before : Log := [(0, .asked (.setFault none (some .networkDown))), (0, .asked (.await 100)),
      (0, .asked (.await 0)), (0, .told (.answered 1 none)), (100, .asked (.assign config)),
      (100, .told (.posted (.peer endpoint) (.overlayConfig config) (some (.io .networkDown))))]
    let log := before ++ [(100, .told (.answered 0 (some config)))]
    ∃ v, Run endpoint log v ∧ v.ready = [] ∧ v.guest.config = some config ∧
      confirmed log = [(.peer endpoint, config)] ∧ Answers before 100 0 (some config) ∧
      Answers (before.take 3) 0 1 none := by
  intro endpoint config before log
  have hstart : Run endpoint [] { guest := { endpoint } } := .start 0 {}
  have hfault := hstart.request (.setFault none (some .networkDown))
  have hcalls := (hfault.request (.await 100)).request (.await 0)
  have hwaits := hcalls.turn rfl
  have hanswered := hwaits.turn rfl
  have hlater := hanswered.pass 100 rfl (by decide) (by decide)
  have hassigned := hlater.request (.assign config)
  have hrun : Run endpoint log _ := hassigned.turn rfl
  obtain ⟨hconfig, -, hconfirmed, -, hanswers, -⟩ := answered_as_soon_as_assigned hrun
  exact ⟨_, hrun, rfl, hconfig, hconfirmed, hanswers before 100 0 (some config) [] rfl,
    hanswers (before.take 3) 0 1 none _ rfl⟩

end Visit

end LocalPlay.Overlay
