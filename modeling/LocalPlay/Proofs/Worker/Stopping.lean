import LocalPlay.Proofs.Worker.Journal

/-!
# Stopping a worker

A request to stop can come at any time: before the first event, while events wait, during work, or
after the loop has ended by itself. It puts an end to taking events, and to nothing else. The work
at hand goes on until it is done, as at any other time, and its error is not lost: it is what the
loop ends with, and what whoever waits for the end of the loop learns.
-/

namespace LocalPlay.Worker

variable {α ω ε : Type}

namespace Journal

/-- Nothing but what others do with a worker lies between two journals: what was taken, what was
told and how the loop stands are the same, and a request to stop is not taken back. -/
structure Unmoved (j j' : Journal α ω ε) : Prop where
  handled : j'.handled = j.handled
  underway : j'.underway = j.underway
  notices : j'.notices = j.notices
  ending : j'.loop.ending = j.loop.ending
  asked : j.loop.stopAsked = true → j'.loop.stopAsked = true

theorem next_cases (j : Journal α ω ε) (move : Move α ω ε) : (∃ duty, move = .turn duty) ∨
    (∃ result, move = .finish result) ∨ j.Unmoved (j.next move) := by
  cases move with
  | turn duty => exact .inl ⟨duty, rfl⟩
  | finish result => exact .inr (.inl ⟨result, rfl⟩)
  | offer event =>
    rcases j.loop.offer_cases event with hoffer | ⟨-, hoffer⟩ <;> rw [next, hoffer] <;>
      exact .inr (.inr ⟨rfl, rfl, rfl, rfl, id⟩)
  | starve => exact .inr (.inr ⟨rfl, rfl, rfl, rfl, id⟩)
  | stop =>
    rw [next, Loop.stop]
    split
    · exact .inr (.inr ⟨rfl, rfl, rfl, rfl, fun _ => rfl⟩)
    · exact .inr (.inr ⟨rfl, rfl, rfl, rfl, id⟩)
  | drop =>
    rw [next, Loop.drop]
    split
    · exact .inr (.inr ⟨rfl, rfl, rfl, rfl, fun _ => rfl⟩)
    · exact .inr (.inr ⟨rfl, rfl, rfl, rfl, id⟩)
  | report =>
    rcases j.loop.report_cases with hreport | ⟨-, ending, -, hreport⟩ <;> rw [next, hreport] <;>
      exact .inr (.inr ⟨rfl, rfl, rfl, rfl, id⟩)

/-- While there is work, nothing is told, whatever comes: it has to be done first. -/
theorem step_underway {j : Journal α ω ε} (h : j.Kept) {event : α}
    (hunderway : j.underway = some event) {move : Move α ω ε}
    (hmove : ∀ result, move ≠ .finish result) :
    (j.next move).underway = some event ∧ (j.next move).handled = j.handled ∧
      (j.next move).notices = j.notices := by
  rcases j.next_cases move with ⟨duty, rfl⟩ | ⟨result, rfl⟩ | hunmoved
  · have hwork : j.loop.work.isSome := by
      rw [← h.underway, hunderway]
      rfl
    have hidle : j.loop.turn duty = none := if_pos (.inr hwork)
    rw [next, hidle]
    exact ⟨hunderway, rfl, rfl⟩
  · exact absurd rfl (hmove result)
  · exact ⟨hunmoved.underway.trans hunderway, hunmoved.handled, hunmoved.notices⟩

/-- The loop does nothing after a request to stop, but for its end. -/
theorem turn_asked {j : Journal α ω ε} (hasked : j.loop.stopAsked = true) (duty : Duty α ω ε) :
    j.next (.turn duty) = j ∧ (j.loop.ending.isSome ∨ j.loop.work.isSome) ∨
      j.next (.turn duty) = { j with
        loop := (j.loop.conclude .stopped).1
        exhausted := none
        notices := j.notices ++ [.cleaned] } := by
  have hturn := j.loop.turn_cases duty
  rw [next]
  generalize j.loop.turn duty = outcome at hturn
  cases hturn with
  | idle hidle =>
    rcases hidle with hended | hworks | ⟨hgoes, -⟩
    · exact .inl ⟨rfl, .inl hended⟩
    · exact .inl ⟨rfl, .inr hworks⟩
    · exact absurd (hgoes.symm.trans hasked) Bool.false_ne_true
  | stopped =>
    refine .inr ?_
    simp only [enter, Loop.conclude, hasked, if_true]
  | exhausted _ _ hgoes => exact absurd (hgoes.symm.trans hasked) Bool.false_ne_true
  | took _ _ hgoes => exact absurd (hgoes.symm.trans hasked) Bool.false_ne_true

/-- A request to stop is not taken back, and no event is taken after it. -/
theorem step_asked {j : Journal α ω ε} (hasked : j.loop.stopAsked = true) (move : Move α ω ε) :
    (j.next move).loop.stopAsked = true ∧ (j.next move).taken = j.taken := by
  rcases j.next_cases move with ⟨duty, rfl⟩ | ⟨result, rfl⟩ | hunmoved
  · rcases turn_asked hasked duty with ⟨hturn, -⟩ | hturn <;> rw [hturn] <;> exact ⟨hasked, rfl⟩
  · refine ⟨(j.loop.finish_stopAsked result).trans hasked, ?_⟩
    simp [next, taken, Function.comp_def]
  · refine ⟨hunmoved.asked hasked, ?_⟩
    rw [taken, hunmoved.handled, hunmoved.underway, taken]

variable {capacity : Nat} {before : List (Move α ω ε)}

theorem underway_ofMoves {event : α} (hunderway : (ofMoves capacity before).underway = some event)
    {after : List (Move α ω ε)} (hafter : ∀ result, .finish result ∉ after) :
    (ofMoves capacity (before ++ after)).underway = some event ∧
      (ofMoves capacity (before ++ after)).handled = (ofMoves capacity before).handled ∧
      (ofMoves capacity (before ++ after)).notices = (ofMoves capacity before).notices := by
  induction after using List.reverseRecOn with
  | nil =>
    rw [List.append_nil]
    exact ⟨hunderway, rfl, rfl⟩
  | append_singleton after move ih =>
    obtain ⟨hthen, hhandled, hnotices⟩ :=
      ih fun result hmem => hafter result (List.mem_append_left _ hmem)
    have hmove : ∀ result, move ≠ .finish result := by
      rintro result rfl
      exact hafter result (List.mem_append_right _ (List.mem_singleton_self _))
    have hstep := step_underway (kept_ofMoves capacity (before ++ after)) hthen hmove
    rw [← List.append_assoc, ofMoves_concat]
    exact ⟨hstep.1, hstep.2.1.trans hhandled, hstep.2.2.trans hnotices⟩

theorem taken_ofMoves (hasked : (ofMoves capacity before).loop.stopAsked = true)
    (after : List (Move α ω ε)) :
    (ofMoves capacity (before ++ after)).loop.stopAsked = true ∧
      (ofMoves capacity (before ++ after)).taken = (ofMoves capacity before).taken := by
  induction after using List.reverseRecOn with
  | nil =>
    rw [List.append_nil]
    exact ⟨hasked, rfl⟩
  | append_singleton after move ih =>
    have hstep := step_asked ih.1 move
    rw [← List.append_assoc, ofMoves_concat]
    exact ⟨hstep.1, hstep.2.trans ih.2⟩

theorem asked_of_stop (hstop : .stop ∈ before) :
    (ofMoves capacity before).loop.stopAsked = true := by
  obtain ⟨first, rest, rfl⟩ := List.append_of_mem hstop
  have hasked : (ofMoves capacity (first ++ [.stop])).loop.stopAsked = true := by
    rw [ofMoves_concat, next, Loop.stop]
    split
    · rfl
    · next hholding => exact (kept_ofMoves capacity first).asked hholding
  rw [List.append_cons]
  exact (taken_ofMoves hasked rest).1

/-- Whoever holds the worker and stops it hears of the end of the loop, once the work at hand is
done and the loop has had its turn. -/
theorem learned_of_stop {j : Journal α ω ε} (h : j.Kept) (hholder : j.loop.holder ≠ .gone)
    (result : Except ε Unit) (duty : Duty α ω ε) :
    ((((j.next .stop).next (.finish result)).next (.turn duty)).next .report).learned ≠ [] := by
  have hstopped : j.loop.stop.holder = .waiting ∧ j.loop.stop.stopAsked = true := by
    rw [Loop.stop]
    split
    · exact ⟨rfl, rfl⟩
    · next hholding =>
      refine ⟨?_, h.asked hholding⟩
      cases hwaits : j.loop.holder with
      | holding => exact absurd hwaits hholding
      | waiting => rfl
      | gone => exact absurd hwaits hholder
  generalize hdone : (j.next .stop).next (.finish result) = done
  obtain ⟨hwaits, hasked, hwork⟩ : done.loop.holder = .waiting ∧ done.loop.stopAsked = true ∧
      done.loop.work = none := by
    rw [← hdone]
    exact ⟨(j.loop.stop.finish_holder result).trans hstopped.1,
      (j.loop.stop.finish_stopAsked result).trans hstopped.2, j.loop.stop.finish_work result⟩
  obtain ⟨hstill, hended⟩ : (done.next (.turn duty)).loop.holder = .waiting ∧
      (done.next (.turn duty)).loop.ending.isSome := by
    rcases turn_asked hasked duty with ⟨hturn, hended | hworks⟩ | hturn
    · rw [hturn]
      exact ⟨hwaits, hended⟩
    · rw [hwork] at hworks
      exact absurd hworks Bool.false_ne_true
    · rw [hturn]
      exact ⟨hwaits, rfl⟩
  obtain ⟨ending, hending⟩ := Option.isSome_iff_exists.mp hended
  rw [next, Loop.report, if_pos ⟨hstill, hended⟩, hending]
  exact List.append_ne_nil_of_right_ne_nil _ (List.cons_ne_nil _ _)

/-- A worker that nobody stops takes the first of the events that wait. -/
theorem taken_turn {j : Journal α ω ε} (h : j.Kept) (hending : j.loop.ending = none)
    (hunderway : j.underway = none) (hasked : j.loop.stopAsked = false) {event : α} {rest : List α}
    (haccepted : j.accepted = j.taken ++ event :: rest) (duty : Duty α ω ε) :
    (j.next (.turn duty)).taken = j.taken ++ [event] := by
  have hwork : j.loop.work = none := by
    rw [← Option.not_isSome_iff_eq_none, ← h.underway, hunderway]
    exact Bool.false_ne_true
  have hqueue : j.loop.queue = event :: rest := by
    obtain ⟨waiting, hwaits, hwaiting⟩ := h.accepted
    rw [← hwaiting hending]
    exact List.append_cancel_left (hwaits.symm.trans haccepted)
  have htook : j.loop.turn duty = some (j.loop.take duty event rest) := by
    simp [Loop.turn, hending, hwork, hasked, hqueue]
  rw [next, htook]
  cases hresponse : duty.respond event <;>
    simp [Loop.take, Loop.conclude, enter, Outcome.ofResponse?, taken, hresponse, hunderway]

theorem step_ne_crashed {j : Journal α ω ε} (hending : j.loop.ending ≠ some .crashed)
    {move : Move α ω ε}
    (hsteady : ∀ duty, move = .turn duty → ∀ event, duty.respond event ≠ .crash) :
    (j.next move).loop.ending ≠ some .crashed := by
  rcases j.next_cases move with ⟨duty, rfl⟩ | ⟨result, rfl⟩ | hunmoved
  · have hturn := j.loop.turn_cases duty
    rw [next]
    generalize j.loop.turn duty = outcome at hturn
    cases hturn with
    | idle => exact hending
    | stopped => simp [Loop.conclude]
    | exhausted => simp [Loop.conclude]
    | @took event rest hgoes =>
      cases hresponse : duty.respond event with
      | crash => exact absurd hresponse (hsteady duty rfl event)
      | failure error => simp [Loop.take, Loop.conclude, hresponse]
      | _ => simpa [Loop.take, hresponse] using hending
  · show (j.loop.finish result).1.ending ≠ some .crashed
    unfold Loop.finish
    split
    · exact hending
    · exact hending
    · simp [Loop.conclude]
  · rw [hunmoved.ending]
    exact hending

theorem ending_ne_crashed {moves : List (Move α ω ε)}
    (hsteady : ∀ duty, .turn duty ∈ moves → ∀ event, duty.respond event ≠ .crash) :
    (ofMoves capacity moves).loop.ending ≠ some .crashed := by
  induction moves using List.reverseRecOn with
  | nil => exact nofun
  | append_singleton moves move ih =>
    rw [ofMoves_concat]
    refine step_ne_crashed (ih fun duty hmem => hsteady duty (List.mem_append_left _ hmem)) ?_
    rintro duty rfl
    exact hsteady duty (List.mem_append_right _ (List.mem_singleton_self _))

end Journal

open Journal

/-- Whatever others do with a worker that does not crash, and whenever they do it, the events taken
are the first of those accepted, in their order, and each was done with before the next was taken.
The next of them is taken in the turn of a loop that goes on and was not asked to stop. Work that
has begun goes on until it is done, and nothing else happens meanwhile; a request to stop does not
change this, but no event is taken after it. The worker cleans up once, when its loop has ended,
whether this was asked for or came of an error, and nothing follows. The one who stops a worker
hears of that end: the error, if there was one, is the only one that was met. -/
theorem takes_in_order_and_cleans_up_once (capacity : Nat) {moves : List (Move α ω ε)}
    (hsteady : ∀ duty, .turn duty ∈ moves → ∀ event, duty.respond event ≠ .crash) :
    let j := ofMoves capacity moves
    (∃ waiting, j.accepted = j.taken ++ waiting ∧
      ∀ event rest, waiting = event :: rest → j.loop.ending = none → j.underway = none →
        j.loop.stopAsked = false → ∀ duty, (j.next (.turn duty)).taken = j.taken ++ [event]) ∧
      j.notices = j.handled.flatMap Handled.told ++ j.underway.toList.map .took ++
        (if j.loop.ending.isSome then [.cleaned] else []) ∧
      (j.loop.ending.isSome → j.underway = none) ∧
      (∀ before after, moves = before ++ after →
        let earlier := ofMoves capacity before
        (.stop ∈ before → j.taken = earlier.taken) ∧
          ∀ event, earlier.underway = some event → (∀ result, .finish result ∉ after) →
            j.underway = some event ∧ j.notices = earlier.notices ∧
              ∀ result, (j.next (.finish result)).handled =
                earlier.handled ++ [⟨event, .worked result⟩]) ∧
      j.errors = (j.loop.ending.bind Ending.error?).toList ∧
      (j.learned = [] ∨ ∃ ending, j.learned = [ending] ∧ j.loop.ending = some ending ∧
        (ending = .stopped ∧ j.errors = [] ∨
          ∃ error, ending = .failed error ∧ j.errors = [error])) ∧
      (j.loop.holder ≠ .gone → ∀ result duty,
        ((((j.next .stop).next (.finish result)).next (.turn duty)).next .report).learned ≠
          []) := by
  intro j
  have h : j.Kept := kept_ofMoves capacity moves
  have hcrash : j.loop.ending ≠ some .crashed := ending_ne_crashed hsteady
  refine ⟨?_, ?_, fun hended => ?_, ?_, h.errors, ?_, learned_of_stop h⟩
  · obtain ⟨waiting, haccepted, -⟩ := h.accepted
    refine ⟨waiting, haccepted, ?_⟩
    rintro event rest rfl hending hunderway hasked duty
    exact taken_turn h hending hunderway hasked haccepted duty
  · have hcleaned : j.loop.cleaned = true ↔ j.loop.ending.isSome = true := by
      rw [h.cleaned, Option.isSome_iff_exists]
      constructor
      · rintro ⟨ending, hending, -⟩
        exact ⟨ending, hending⟩
      · rintro ⟨ending, hending⟩
        refine ⟨ending, hending, ?_⟩
        rintro rfl
        exact hcrash hending
    rw [h.notices]
    simp only [hcleaned]
  · exact h.underway_eq_none (h.working hended)
  · rintro before after hsplit
    refine ⟨fun hstop => ?_, fun event hunderway hafter => ?_⟩
    · have hasked : (ofMoves capacity before).loop.stopAsked = true := asked_of_stop hstop
      have htaken := (taken_ofMoves hasked after).2
      rwa [← hsplit] at htaken
    · have hthen := underway_ofMoves hunderway hafter
      rw [← hsplit] at hthen
      obtain ⟨hstill, hhandled, hnotices⟩ := hthen
      refine ⟨hstill, hnotices, fun result => ?_⟩
      show j.handled ++ j.underway.toList.map _ = _
      rw [hstill, hhandled]
      rfl
  · refine h.learned.imp_right ?_
    rintro ⟨-, ending, hlearned, hending⟩
    refine ⟨ending, hlearned, hending, ?_⟩
    have herrors := h.errors
    rw [hending] at herrors hcrash
    cases ending with
    | stopped => exact .inl ⟨rfl, herrors⟩
    | failed error => exact .inr ⟨error, rfl, herrors⟩
    | crashed => exact absurd rfl hcrash

/-- Two events are offered, and the request to stop comes while the first is being worked on, which
fails in the end. -/
theorem stopped_during_work_that_fails :
    let duty : Duty Nat Nat String := ⟨.work, "no more events"⟩
    let before := [Move.offer 1, .offer 2, .turn duty, .stop]
    let after := [Move.turn duty, .finish (.error "refused"), .turn duty, .report]
    let j := Journal.ofMoves 4 (before ++ after)
    (∀ other, .turn other ∈ before ++ after → ∀ event, other.respond event ≠ .crash) ∧
      (Journal.ofMoves 4 before).underway = some 1 ∧ j.accepted = [1, 2] ∧
      j.taken = (Journal.ofMoves 4 before).taken ∧ j.taken = [1] ∧
      j.notices = [.took 1, .finished, .cleaned] ∧
      j.learned = [.failed "refused"] ∧ j.errors = ["refused"] := by
  intro duty before after j
  have hsteady : ∀ other, .turn other ∈ before ++ after →
      ∀ event, other.respond event ≠ .crash := by
    intro other hmem event
    have hother : other = duty := by simpa [before, after] using hmem
    rw [hother]
    exact nofun
  obtain ⟨-, htold, -, hsplits, -, hlearned, -⟩ := takes_in_order_and_cleans_up_once 4 hsteady
  have hstop : Move.stop ∈ before := by simp [before]
  refine ⟨hsteady, rfl, rfl, (hsplits before after rfl).1 hstop, rfl, htold, rfl, ?_⟩
  rcases hlearned with hnone | ⟨ending, hlearned, hending, ⟨rfl, -⟩ | ⟨error, rfl, herrors⟩⟩
  · exact nomatch hnone
  · exact nomatch hlearned
  · cases hending
    exact herrors

end LocalPlay.Worker
