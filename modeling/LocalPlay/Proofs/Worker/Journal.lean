import LocalPlay.Proofs.Splits
import LocalPlay.Worker.Loop
import Mathlib.Data.List.Induction

/-!
# The journal of a worker

A worker is moved from three sides: others offer it events, hold it and stop it; whoever does its
work says when that is done; and it has turns of its own. All of this may happen in any order, and
what the worker is for may be another thing at every turn, as it may have learned something. Beside
such a run stands a journal: which events were accepted, which were handled and with what outcome,
and which one is under way. It is kept from outside, by the moves and by what the loop told, and
never looks into its queue.

`Turn` is all that the loop does by itself, and `Kept` ties the journal to the loop: the events
handled are the first of those accepted, what was told is what they come to one after the other, and
the last thing told is the cleanup.
-/

namespace LocalPlay.Worker

variable {α ω ε : Type}

/-- The error a loop ended with. -/
def Ending.error? : Ending ε → Option ε
  | failed error => some error
  | _ => none

/-- What became of an event. -/
inductive Outcome (ε : Type) where
  /-- There was nothing to do. -/
  | passed
  /-- It led to work, which was completed. -/
  | worked (result : Except ε Unit)
  | failed (error : ε)
  | crashed

namespace Outcome

def error? : Outcome ε → Option ε
  | worked (.error error) => some error
  | failed error => some error
  | _ => none

/-- The outcome of an event that leads to no work. -/
def ofResponse? : Response ω ε → Option (Outcome ε)
  | .work _ => none
  | .nothing => some passed
  | .failure error => some (failed error)
  | .crash => some crashed

end Outcome

structure Handled (α ε : Type) where
  event : α
  outcome : Outcome ε

/-- What is told of an event that is handled. -/
def Handled.told (h : Handled α ε) : List (Notice α) :=
  match h.outcome with
  | .worked _ => [.took h.event, .finished]
  | _ => [.took h.event]

/-- What can happen to a worker. -/
inductive Move (α ω ε : Type) where
  | offer (event : α)
  /-- There will be no more events. -/
  | starve
  | stop
  | drop
  /-- Whoever waits for the end of the loop looks for it. -/
  | report
  | turn (duty : Duty α ω ε)
  /-- The work at hand is done. -/
  | finish (result : Except ε Unit)

structure Journal (α ω ε : Type) where
  loop : Loop α ω ε
  accepted : List α := []
  handled : List (Handled α ε) := []
  /-- The event that led to the work at hand. -/
  underway : Option α := none
  /-- The error of a loop that was out of events. -/
  exhausted : Option ε := none
  notices : List (Notice α) := []
  /-- What the one who waits for the end of the loop was told. -/
  learned : List (Ending ε) := []

namespace Journal

/-- The events that were taken, in order. -/
def taken (j : Journal α ω ε) : List α :=
  j.handled.map (·.event) ++ j.underway.toList

/-- Every error that was met. -/
def errors (j : Journal α ω ε) : List ε :=
  j.handled.filterMap (·.outcome.error?) ++ j.exhausted.toList

/-- Enters what the loop told in its turn. -/
def enter (j : Journal α ω ε) (duty : Duty α ω ε) (told : List (Notice α)) : Journal α ω ε :=
  match told with
  | .took event :: _ =>
    match Outcome.ofResponse? (duty.respond event) with
    | none => { j with underway := some event }
    | some outcome => { j with handled := j.handled ++ [⟨event, outcome⟩] }
  | _ => { j with exhausted := if j.loop.stopAsked then none else some duty.exhausted }

def next (j : Journal α ω ε) : Move α ω ε → Journal α ω ε
  | .offer event =>
    let (taken, loop) := j.loop.offer event
    { j with loop, accepted := if taken then j.accepted ++ [event] else j.accepted }
  | .starve => { j with loop := j.loop.starve }
  | .stop => { j with loop := j.loop.stop }
  | .drop => { j with loop := j.loop.drop }
  | .report =>
    let (ending, loop) := j.loop.report
    { j with loop, learned := j.learned ++ ending.toList }
  | .turn duty =>
    match j.loop.turn duty with
    | none => j
    | some (loop, told) => { j.enter duty told with loop, notices := j.notices ++ told }
  | .finish result =>
    let (loop, told) := j.loop.finish result
    { j with
      loop
      notices := j.notices ++ told
      handled := j.handled ++ j.underway.toList.map (⟨·, .worked result⟩)
      underway := none }

def ofMoves (capacity : Nat) (moves : List (Move α ω ε)) : Journal α ω ε :=
  moves.foldl next { loop := { capacity } }

theorem ofMoves_concat (capacity : Nat) (moves : List (Move α ω ε)) (move : Move α ω ε) :
    ofMoves capacity (moves ++ [move]) = (ofMoves capacity moves).next move :=
  List.foldl_append ..

end Journal

/-! ### What a loop does by itself -/

namespace Loop

/-- What the turn of a loop comes to. -/
inductive Turn (duty : Duty α ω ε) (l : Loop α ω ε) : Option (Loop α ω ε × List (Notice α)) → Prop
  /-- It has ended, or has work at hand, or waits for an event. -/
  | idle (hidle : l.ending.isSome ∨ l.work.isSome ∨
      l.stopAsked = false ∧ l.queue = [] ∧ l.fed = true) : Turn duty l none
  | stopped (hending : l.ending = none) (hwork : l.work = none) (hasked : l.stopAsked = true) :
    Turn duty l (some (l.conclude .stopped))
  | exhausted (hending : l.ending = none) (hwork : l.work = none) (hasked : l.stopAsked = false)
      (hqueue : l.queue = []) : Turn duty l (some (l.conclude (.failed duty.exhausted)))
  | took {event : α} {rest : List α} (hending : l.ending = none) (hwork : l.work = none)
      (hasked : l.stopAsked = false) (hqueue : l.queue = event :: rest) :
    Turn duty l (some (l.take duty event rest))

theorem turn_cases (duty : Duty α ω ε) (l : Loop α ω ε) : l.Turn duty (l.turn duty) := by
  rw [turn]
  by_cases hbusy : l.ending.isSome ∨ l.work.isSome
  · rw [if_pos hbusy]
    exact .idle (hbusy.imp_right .inl)
  · rw [if_neg hbusy]
    simp only [not_or, Option.not_isSome_iff_eq_none] at hbusy
    obtain ⟨hending, hwork⟩ := hbusy
    cases hasked : l.stopAsked with
    | true => exact .stopped hending hwork hasked
    | false =>
      rw [if_neg Bool.false_ne_true]
      cases hqueue : l.queue with
      | cons event rest => exact .took hending hwork hasked hqueue
      | nil =>
        dsimp only
        cases hfed : l.fed with
        | true => exact .idle (.inr (.inr ⟨hasked, hqueue, hfed⟩))
        | false => exact .exhausted hending hwork hasked hqueue

theorem offer_cases (l : Loop α ω ε) (event : α) : l.offer event = (false, l) ∨
    l.ending = none ∧ l.offer event = (true, { l with queue := l.queue ++ [event] }) := by
  rw [offer]
  split
  · next hopen => exact .inr ⟨Option.isNone_iff_eq_none.mp hopen.1, rfl⟩
  · exact .inl rfl

theorem report_cases (l : Loop α ω ε) : l.report = (none, l) ∨
    l.holder = .waiting ∧ ∃ ending, l.ending = some ending ∧
      l.report = (some ending, { l with holder := .gone }) := by
  rw [report]
  split
  · next hlearns =>
    obtain ⟨ending, hending⟩ := Option.isSome_iff_exists.mp hlearns.2
    exact .inr ⟨hlearns.1, ending, hending, by rw [hending]⟩
  · exact .inl rfl

theorem finish_stopAsked (l : Loop α ω ε) (result : Except ε Unit) :
    (l.finish result).1.stopAsked = l.stopAsked := by
  unfold finish
  split <;> rfl

theorem finish_holder (l : Loop α ω ε) (result : Except ε Unit) :
    (l.finish result).1.holder = l.holder := by
  unfold finish
  split <;> rfl

theorem finish_work (l : Loop α ω ε) (result : Except ε Unit) :
    (l.finish result).1.work = none := by
  unfold finish
  split
  · assumption
  · rfl
  · rfl

end Loop

/-! ### The journal agrees with the loop -/

/-- What the journal has to do with the loop. -/
structure Journal.Kept (j : Journal α ω ε) : Prop where
  accepted : ∃ waiting, j.accepted = j.taken ++ waiting ∧
    (j.loop.ending = none → waiting = j.loop.queue)
  notices : j.notices = j.handled.flatMap Handled.told ++ j.underway.toList.map .took ++
    (if j.loop.cleaned then [.cleaned] else [])
  underway : j.underway.isSome = j.loop.work.isSome
  working : j.loop.ending.isSome = true → j.loop.work = none
  cleaned : j.loop.cleaned = true ↔ ∃ ending, j.loop.ending = some ending ∧ ending ≠ .crashed
  errors : j.errors = (j.loop.ending.bind Ending.error?).toList
  asked : j.loop.holder ≠ .holding → j.loop.stopAsked = true
  learned : j.learned = [] ∨ j.loop.holder = .gone ∧
    ∃ ending, j.learned = [ending] ∧ j.loop.ending = some ending

namespace Journal

theorem kept_start (capacity : Nat) : Kept ({ loop := { capacity } } : Journal α ω ε) where
  accepted := ⟨[], rfl, fun _ => rfl⟩
  notices := rfl
  underway := rfl
  working := nofun
  cleaned := ⟨nofun, nofun⟩
  errors := rfl
  asked := fun h => absurd rfl h
  learned := .inl rfl

namespace Kept

variable {j : Journal α ω ε}

theorem underway_eq_none (h : j.Kept) (hwork : j.loop.work = none) : j.underway = none := by
  rw [← Option.not_isSome_iff_eq_none, h.underway, hwork]
  exact Bool.false_ne_true

/-- A loop that goes on has not cleaned up, has met no error, and nobody has heard of its end. -/
theorem of_going (h : j.Kept) (hending : j.loop.ending = none) :
    j.loop.cleaned = false ∧ j.errors = [] ∧ j.learned = [] := by
  refine ⟨?_, ?_, ?_⟩
  · rw [← Bool.not_eq_true, h.cleaned, hending]
    exact nofun
  · rw [h.errors, hending]
    rfl
  · rcases h.learned with hlearned | ⟨-, ending, -, hended⟩
    · exact hlearned
    · rw [hending] at hended
      exact nomatch hended

theorem errors_eq_nil (h : j.Kept) (hending : j.loop.ending = none) :
    j.handled.filterMap (·.outcome.error?) = [] ∧ j.exhausted = none := by
  obtain ⟨-, herrors, -⟩ := h.of_going hending
  obtain ⟨hhandled, hexhausted⟩ := List.append_eq_nil_iff.mp herrors
  exact ⟨hhandled, Option.toList_eq_nil_iff.mp hexhausted⟩

theorem errors_handled (h : j.Kept) (hending : j.loop.ending = none) (handled : Handled α ε) :
    (j.handled ++ [handled]).filterMap (·.outcome.error?) ++ j.exhausted.toList =
      handled.outcome.error?.toList := by
  obtain ⟨hhandled, hexhausted⟩ := h.errors_eq_nil hending
  rw [filterMap_concat, hhandled, hexhausted, List.nil_append]
  exact List.append_nil _

/-- Between works a loop that goes on has told what the events that are handled come to. -/
theorem of_between (h : j.Kept) (hending : j.loop.ending = none) (hwork : j.loop.work = none) :
    j.accepted = j.handled.map (·.event) ++ j.loop.queue ∧
      j.notices = j.handled.flatMap Handled.told := by
  obtain ⟨waiting, haccepted, hwaiting⟩ := h.accepted
  have hnotices := h.notices
  rw [hwaiting hending, taken, h.underway_eq_none hwork] at haccepted
  rw [(h.of_going hending).1, h.underway_eq_none hwork] at hnotices
  simp only [Option.toList_none, List.append_nil, List.map_nil, Bool.false_eq_true, if_false]
    at haccepted hnotices
  exact ⟨haccepted, hnotices⟩

/-- The loop ends in good order: nothing is under way, and the error met, if any, is its ending. -/
theorem of_conclude (j : Journal α ω ε) (ending : Ending ε) (hcrash : ending ≠ .crashed)
    (haccepted : ∃ waiting, j.accepted = j.taken ++ waiting)
    (hnotices : j.notices = j.handled.flatMap Handled.told) (hunderway : j.underway = none)
    (herrors : j.errors = ending.error?.toList)
    (hasked : j.loop.holder ≠ .holding → j.loop.stopAsked = true) (hlearned : j.learned = []) :
    Kept { j with
      loop := (j.loop.conclude ending).1
      notices := j.notices ++ [.cleaned] } where
  accepted := by
    obtain ⟨waiting, hwaiting⟩ := haccepted
    exact ⟨waiting, hwaiting, nofun⟩
  notices := by simp [Loop.conclude, hnotices, hunderway]
  underway := by simp [Loop.conclude, hunderway]
  working := fun _ => rfl
  cleaned := ⟨fun _ => ⟨ending, rfl, hcrash⟩, fun _ => rfl⟩
  errors := herrors
  asked := hasked
  learned := .inl hlearned

/-- Of holders, requests to stop and what is to come, a loop keeps nothing but these. -/
theorem of_request (h : j.Kept) (loop : Loop α ω ε)
    (hloop : loop.queue = j.loop.queue ∧ loop.work = j.loop.work ∧
      loop.ending = j.loop.ending ∧ loop.cleaned = j.loop.cleaned)
    (hasked : loop.holder ≠ .holding → loop.stopAsked = true)
    (hholder : j.loop.holder = .gone → loop.holder = .gone) : Kept { j with loop } := by
  obtain ⟨hqueue, hwork, hending, hcleaned⟩ := hloop
  constructor
  · show ∃ waiting, j.accepted = j.taken ++ waiting ∧ (loop.ending = none → waiting = loop.queue)
    rw [hending, hqueue]
    exact h.accepted
  · show j.notices = _ ++ if loop.cleaned = true then _ else _
    rw [hcleaned]
    exact h.notices
  · show j.underway.isSome = loop.work.isSome
    rw [hwork]
    exact h.underway
  · show loop.ending.isSome = true → loop.work = none
    rw [hending, hwork]
    exact h.working
  · show loop.cleaned = true ↔ ∃ ending, loop.ending = some ending ∧ _
    rw [hcleaned, hending]
    exact h.cleaned
  · show j.errors = (loop.ending.bind Ending.error?).toList
    rw [hending]
    exact h.errors
  · exact hasked
  · rcases h.learned with hnone | ⟨hgone, ending, hlearned, hended⟩
    · exact .inl hnone
    · exact .inr ⟨hholder hgone, ending, hlearned, hending.trans hended⟩

theorem offer (h : j.Kept) (event : α) : (j.next (.offer event)).Kept := by
  obtain ⟨waiting, haccepted, hwaiting⟩ := h.accepted
  rcases j.loop.offer_cases event with hoffer | ⟨hending, hoffer⟩ <;> rw [next, hoffer]
  · exact h
  · refine { h with accepted := ⟨waiting ++ [event], ?_, fun _ => ?_⟩ }
    · show j.accepted ++ [event] = j.taken ++ (waiting ++ [event])
      rw [haccepted, List.append_assoc]
    · show waiting ++ [event] = j.loop.queue ++ [event]
      rw [hwaiting hending]

theorem report (h : j.Kept) : (j.next .report).Kept := by
  rcases j.loop.report_cases with hreport | ⟨hholder, ending, hending, hreport⟩ <;>
    rw [next, hreport]
  · dsimp only
    rw [Option.toList_none, List.append_nil]
    exact h
  · have hnone : j.learned = [] := by
      refine h.learned.resolve_right ?_
      rw [hholder]
      exact nofun
    have hgone := h.of_request { j.loop with holder := .gone } ⟨rfl, rfl, rfl, rfl⟩
      (fun _ => h.asked (by rw [hholder]; exact nofun)) fun _ => rfl
    refine { hgone with learned := .inr ⟨rfl, ending, ?_, hending⟩ }
    show j.learned ++ [ending] = [ending]
    rw [hnone, List.nil_append]

/-- The loop ends without having taken another event. -/
theorem of_end (h : j.Kept) (hending : j.loop.ending = none) (hwork : j.loop.work = none)
    (ending : Ending ε) (hcrash : ending ≠ .crashed) :
    Kept { j with
      loop := (j.loop.conclude ending).1
      exhausted := ending.error?
      notices := j.notices ++ [.cleaned] } := by
  obtain ⟨haccepted, hnotices⟩ := h.of_between hending hwork
  obtain ⟨hhandled, -⟩ := h.errors_eq_nil hending
  have hunderway := h.underway_eq_none hwork
  refine of_conclude { j with exhausted := ending.error? } ending hcrash ⟨j.loop.queue, ?_⟩
    hnotices hunderway ?_ h.asked (h.of_going hending).2.2
  · simpa [taken, hunderway] using haccepted
  · rw [Journal.errors, hhandled, List.nil_append]

theorem take (h : j.Kept) (duty : Duty α ω ε) {event : α} {rest : List α}
    (hending : j.loop.ending = none) (hwork : j.loop.work = none)
    (hqueue : j.loop.queue = event :: rest) :
    Kept { j.enter duty (j.loop.take duty event rest).2 with
      loop := (j.loop.take duty event rest).1
      notices := j.notices ++ (j.loop.take duty event rest).2 } := by
  obtain ⟨haccepted, hnotices⟩ := h.of_between hending hwork
  obtain ⟨hcleaned, -, hlearned⟩ := h.of_going hending
  have hunderway := h.underway_eq_none hwork
  rw [hqueue] at haccepted
  cases hresponse : duty.respond event with
  | work task =>
    simp only [Loop.take, enter, hresponse, Outcome.ofResponse?]
    exact {
      accepted := ⟨rest, by simp [taken, haccepted], fun _ => rfl⟩
      notices := by simp [hnotices, hcleaned]
      underway := rfl
      working := by simp [hending]
      cleaned := h.cleaned
      errors := h.errors
      asked := h.asked
      learned := h.learned }
  | nothing =>
    simp only [Loop.take, enter, hresponse, Outcome.ofResponse?]
    exact {
      accepted := ⟨rest, by simp [taken, hunderway, haccepted], fun _ => rfl⟩
      notices := by simp [hnotices, hunderway, hcleaned, Handled.told]
      underway := h.underway
      working := h.working
      cleaned := h.cleaned
      errors := (h.errors_handled hending _).trans (by rw [hending]; rfl)
      asked := h.asked
      learned := h.learned }
  | failure error =>
    have hconclude := of_conclude
      { j with
        handled := j.handled ++ [⟨event, .failed error⟩]
        notices := j.notices ++ [.took event] }
      (.failed error) nofun ⟨rest, by simp [taken, hunderway, haccepted]⟩
      (by simp [hnotices, Handled.told]) hunderway (h.errors_handled hending _) h.asked hlearned
    rw [List.append_assoc] at hconclude
    rw [Loop.take, hresponse]
    simp only [enter, hresponse]
    exact hconclude
  | crash =>
    simp only [Loop.take, enter, hresponse, Outcome.ofResponse?]
    exact {
      accepted := ⟨rest, by simp [taken, hunderway, haccepted], nofun⟩
      notices := by simp [hnotices, hunderway, hcleaned, Handled.told]
      underway := h.underway
      working := fun _ => hwork
      cleaned := by simp [hcleaned]
      errors := h.errors_handled hending _
      asked := h.asked
      learned := .inl hlearned }

theorem turn (h : j.Kept) (duty : Duty α ω ε) : (j.next (.turn duty)).Kept := by
  have hturn := j.loop.turn_cases duty
  rw [next]
  generalize j.loop.turn duty = outcome at hturn
  cases hturn with
  | idle => exact h
  | stopped hending hwork hasked =>
    have hend := h.of_end hending hwork .stopped nofun
    show Kept { j with
      loop := (j.loop.conclude .stopped).1
      exhausted := if j.loop.stopAsked then none else some duty.exhausted
      notices := j.notices ++ [.cleaned] }
    rw [hasked]
    exact hend
  | exhausted hending hwork hasked hqueue =>
    have hend := h.of_end hending hwork (.failed duty.exhausted) nofun
    show Kept { j with
      loop := (j.loop.conclude (.failed duty.exhausted)).1
      exhausted := if j.loop.stopAsked then none else some duty.exhausted
      notices := j.notices ++ [.cleaned] }
    rw [hasked]
    exact hend
  | took hending hwork hasked hqueue => exact h.take duty hending hwork hqueue

theorem finish (h : j.Kept) (result : Except ε Unit) : (j.next (.finish result)).Kept := by
  cases hwork : j.loop.work with
  | none =>
    have hunderway := h.underway_eq_none hwork
    simp only [next, Loop.finish, hwork, hunderway, Option.toList_none, List.map_nil,
      List.append_nil]
    rw [← hunderway]
    exact h
  | some task =>
    obtain ⟨event, hunderway⟩ : ∃ event, j.underway = some event := by
      rw [← Option.isSome_iff_exists, h.underway, hwork]
      rfl
    have hending : j.loop.ending = none := by
      rw [← Option.not_isSome_iff_eq_none]
      intro hended
      exact nomatch hwork.symm.trans (h.working hended)
    obtain ⟨hcleaned, -, hlearned⟩ := h.of_going hending
    have hnotices := h.notices
    rw [hcleaned, hunderway] at hnotices
    obtain ⟨waiting, haccepted, hwaiting⟩ := h.accepted
    rw [taken, hunderway] at haccepted
    cases result with
    | ok =>
      simp only [next, Loop.finish, hwork, hunderway]
      exact {
        accepted := ⟨waiting, by simpa [taken] using haccepted, hwaiting⟩
        notices := by simp [hnotices, hcleaned, Handled.told]
        underway := rfl
        working := fun _ => rfl
        cleaned := h.cleaned
        errors := (h.errors_handled hending _).trans (by rw [hending]; rfl)
        asked := h.asked
        learned := h.learned }
    | error error =>
      have hconclude := of_conclude
        { j with
          handled := j.handled ++ [⟨event, .worked (.error error)⟩]
          underway := none
          notices := j.notices ++ [.finished] }
        (.failed error) nofun ⟨waiting, by simpa [taken] using haccepted⟩
        (by simp [hnotices, Handled.told]) rfl (h.errors_handled hending _) h.asked hlearned
      rw [List.append_assoc] at hconclude
      simp only [next, Loop.finish, hwork, hunderway]
      exact hconclude

theorem step (h : j.Kept) (move : Move α ω ε) : (j.next move).Kept := by
  cases move with
  | offer event => exact h.offer event
  | starve => exact h.of_request _ ⟨rfl, rfl, rfl, rfl⟩ h.asked id
  | stop =>
    rw [next, Loop.stop]
    split
    · next hholding =>
      refine h.of_request _ ⟨rfl, rfl, rfl, rfl⟩ (fun _ => rfl) fun hgone => ?_
      exact nomatch hgone.symm.trans hholding
    · exact h
  | drop =>
    rw [next, Loop.drop]
    split
    · exact h.of_request _ ⟨rfl, rfl, rfl, rfl⟩ (fun _ => rfl) fun _ => rfl
    · exact h
  | report => exact h.report
  | turn duty => exact h.turn duty
  | finish result => exact h.finish result

end Kept

theorem kept_ofMoves (capacity : Nat) (moves : List (Move α ω ε)) :
    (ofMoves capacity moves).Kept := by
  induction moves using List.reverseRecOn with
  | nil => exact kept_start capacity
  | append_singleton moves move ih =>
    rw [ofMoves_concat]
    exact ih.step move

end Journal

end LocalPlay.Worker
