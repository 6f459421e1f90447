import LocalPlay.Proofs.Session.Creation
import LocalPlay.Proofs.Session.Errors
import LocalPlay.Proofs.Session.Stretches.Findings
import LocalPlay.Proofs.Session.Waiting

/-!
# Requests and their answers

A scan and a removal ask the relay, and end well only if they find an answer when they look. What
they find was not there when they asked, since they forget it then; so it was handled in a later
move: `Answered`. The call waits from the one move to the other, so in a punctual run the answer is
in time.
-/

namespace LocalPlay.Session

open Net Wire Overlay Timing

/-- The packet that raises a latch, where there is only one. -/
def Signal.answer? : Signal → Option Packet
  | scanEnd => some .scanEnd
  | rejectReply => some .rejectReply
  | _ => none

/-- In this move the call asks the relay, and forgets the answers to others. -/
structure Asks (s : Session) (m : Move) (call : Nat) (request : Packet) (signal : Signal) :
    Prop where
  posted : ∃ refusal, .posted (some call) .relay request refusal ∈ (s.move m).told
  lowered : (s.move m).session.latches.isRaised signal = false

/-- The call sends its request in one move of the run, and in a later one such a packet is handled,
no more than the patience after that unless the clock was set past a deadline. -/
def Answered (s : Session) (moves : List Move) (call : Nat) (request answer : Packet)
    (patience : Nat) : Prop :=
  ∃ before asking between answering later,
    moves = before ++ asking :: (between ++ answering :: later) ∧
    (∃ refusal, .posted (some call) .relay request refusal ∈
      ((s.after before).session.move asking).told) ∧
    (∃ sender, .handled sender answer ∈
      ((s.after (before ++ asking :: between)).session.move answering).told) ∧
    (s.Punctual moves → (s.after (before ++ asking :: between)).session.clock ≤
      (s.after before).session.clock + patience)

/-- The call may go on: with the first latch that is raised, or with none if its time is over. -/
inductive Admits (s : Session) (w : Waiting) : Option Nat → Prop
  | fired {index : Nat} {signal : Signal} (hsignal : w.pause.awaited[index]? = some signal)
      (hraised : s.latches.isRaised signal = true)
      (hfirst : ∀ earlier other, earlier < index → w.pause.awaited[earlier]? = some other →
        s.latches.isRaised other = false) : Admits s w (some index)
  | timedOut (hdown : ∀ signal ∈ w.pause.awaited, s.latches.isRaised signal = false)
      (hover : w.deadline.any (· ≤ s.clock) = true) : Admits s w none

variable {s : Session} {m : Move} {call : Nat} {signal : Signal} {answer request : Packet}

/-- Of several latches the most welcome lets the call through. -/
theorem Admits.eq_zero {w : Waiting} {index : Option Nat} (h : s.Admits w index)
    (hsignal : w.pause.awaited[0]? = some signal) (hraised : s.latches.isRaised signal = true) :
    index = some 0 := by
  cases h with
  | @fired index other _ _ hfirst =>
    rcases Nat.eq_zero_or_pos index with rfl | hlater
    · rfl
    · have hlow := hfirst 0 signal hlater hsignal
      exact absurd (hlow.symm.trans hraised) Bool.false_ne_true
  | timedOut hdown =>
    have hlow := hdown signal (List.mem_of_getElem? hsignal)
    exact absurd (hlow.symm.trans hraised) Bool.false_ne_true

/-! ### Answers -/

/-- An answer that is there after a move was there before, or is handled in it. -/
theorem handled_of_raised (hanswer : signal.answer? = some answer)
    (hraised : (s.move m).session.latches.isRaised signal = true) :
    s.latches.isRaised signal = true ∨ ∃ sender, .handled sender answer ∈ (s.move m).told := by
  have hforget (hraised : (s.forget m).latches.isRaised signal = true) :
      s.latches.isRaised signal = true := by
    rcases s.forget_cases m with hforget | ⟨filter, -, hforget⟩ | ⟨removal, -, hforget⟩
    · rwa [hforget] at hraised
    · rwa [hforget] at hraised
    · rw [hforget, Latches.isRaised_lower, Bool.and_eq_true] at hraised
      exact hraised.2
  have hrecords := s.notes_move m
  cases signal with
  | scanEnd =>
    obtain rfl := Option.some.inj hanswer
    exact (hrecords.ended hraised).imp_left hforget
  | rejectReply =>
    obtain rfl := Option.some.inj hanswer
    exact (hrecords.acknowledged.mp hraised).imp_left hforget
  | _ => cases hanswer

/-- An answer that is there after a run and was not there before is handled in one of the moves. -/
theorem exists_answering (hanswer : signal.answer? = some answer)
    (hquiet : s.latches.isRaised signal = false) {moves : List Move}
    (hraised : (s.after moves).session.latches.isRaised signal = true) :
    ∃ between answering later, moves = between ++ answering :: later ∧
      ∃ sender, .handled sender answer ∈ ((s.after between).session.move answering).told := by
  induction moves using List.reverseRecOn with
  | nil => exact absurd (hquiet.symm.trans hraised) Bool.false_ne_true
  | append_singleton moves m ih =>
    rw [after_concat] at hraised
    rcases handled_of_raised hanswer hraised with hbefore | hhandled
    · obtain ⟨between, answering, later, rfl, hhandled⟩ := ih hbefore
      exact ⟨between, answering, later ++ [m], by simp, hhandled⟩
    · exact ⟨moves, m, [], rfl, hhandled⟩

/-- A call that has asked, has waited since, and finds an answer, was answered in time. -/
theorem answered_of_raised (hanswer : signal.answer? = some answer) {before later : List Move}
    {asking : Move} {w : Waiting} {patience : Nat}
    (hasks : (s.after before).session.Asks asking call request signal)
    (hwaits : ∀ between, between <+: later →
      w ∈ (s.after (before ++ asking :: between)).session.waiting)
    (hdeadline : w.deadline = some ((s.after before).session.clock + patience))
    (hraised : (s.after (before ++ asking :: later)).session.latches.isRaised signal = true) :
    s.Answered (before ++ asking :: later) call request answer patience := by
  have hsplit (between : List Move) : (s.after (before ++ asking :: between)).session =
      (((s.after before).session.move asking).session.after between).session := by
    rw [after_append, after_cons]
    rfl
  rw [hsplit] at hraised
  obtain ⟨between, answering, rest, rfl, hhandled⟩ :=
    exists_answering hanswer hasks.lowered hraised
  rw [← hsplit] at hhandled
  refine ⟨before, asking, between, answering, rest, rfl, hasks.posted, hhandled,
    fun hpunctual => ?_⟩
  have hclock : ((s.after before).session.move asking).session.clock =
      (s.after before).session.clock := by
    refine clock_move fun time hreach => ?_
    obtain ⟨refusal, hposted⟩ := hasks.posted
    rw [hreach] at hposted
    cases hposted
  have hlater := (punctual_cons.mp (punctual_append.mp hpunctual).2).2
  rw [hsplit]
  refine clock_le_of_waits (fun early hearly => ?_) hdeadline ?_ (punctual_append.mp hlater).1
  · rw [← hsplit]
    exact hwaits early (hearly.trans (List.prefix_append _ _))
  · rw [hclock]
    exact Nat.le_add_right _ _

/-! ### Ends -/

/-- None is stored just if no error is outstanding. -/
theorem lastError_eq_none_iff (hsound : s.Sound) (hfresh : s.lastError = .none)
    {early later : List Move} :
    ((s.after early).session.after later).session.lastError = .none ↔
      ∀ error, error ≠ .none → ¬ s.Outstanding (early ++ later) error := by
  have hstored {error : NetworkError} (herror : error ≠ .none) :
      ((s.after early).session.after later).session.lastError = error ↔
        s.Outstanding (early ++ later) error := by
    rw [← lastError_eq_iff hsound hfresh _ herror, after_append]
    rfl
  constructor
  · intro hnone error herror houtstanding
    exact herror (((hstored herror).mpr houtstanding).symm.trans hnone)
  · intro hclear
    by_contra herror
    exact hclear _ herror ((hstored herror).mp rfl)

/-- A call ends with the answer it begins with, or with the verdict on its turn. -/
theorem finished_cases {outcome : Outcome} (hfinished : .finished call outcome ∈ (s.move m).told) :
    (∃ begun : Call, m = .event (.call begun) ∧ call = s.calls ∧ begun.answer? s = some outcome) ∨
      m = .turn (.resume call) ∧ s.verdict? call = some outcome := by
  rw [← mem_reports, reports_move] at hfinished
  cases m with
  | event event =>
    cases event with
    | call begun =>
      obtain ⟨rfl, hanswer⟩ := eq_of_mem_toList hfinished
      exact .inl ⟨begun, rfl, rfl, hanswer⟩
    | _ => cases hfinished
  | turn activity =>
    cases activity with
    | resume own =>
      rw [verdicts] at hfinished
      split at hfinished
      · obtain ⟨rfl, hverdict⟩ := eq_of_mem_toList hfinished
        exact .inr ⟨rfl, hverdict⟩
      · cases hfinished
    | _ => cases hfinished
  | reach time => cases hfinished

/-- A call that is found among those that have ended has ended in this way. -/
theorem exists_finished {α : Type} (reads : Outcome → Option α) (told : List Notice) (call : Nat)
    (x : α) (hfound : (reports told).findSome? (fun report =>
      (reads report.2).map (report.1, ·)) = some (call, x)) :
    ∃ outcome, .finished call outcome ∈ told ∧ reads outcome = some x := by
  obtain ⟨⟨own, outcome⟩, hmem, hreport⟩ := List.exists_of_findSome?_eq_some hfound
  obtain ⟨y, hreads, hsame⟩ := Option.map_eq_some_iff.mp hreport
  obtain ⟨rfl, rfl⟩ := Prod.mk.inj hsame
  exact ⟨outcome, mem_reports.mp hmem, hreads⟩

/-- A verdict is that on what the call waits for. -/
theorem exists_pause_of_verdict {outcome : Outcome} (hverdict : s.verdict? call = some outcome) :
    ∃ w ∈ s.waiting, w.id = call ∧
      (w.pause = .cleanup true ∧ outcome = .done ∨ w.pause.promised? = some outcome ∨
        ∃ index, w.pause.verdict? s index = some outcome ∧ s.Admits w index) := by
  rw [verdict?] at hverdict
  split at hverdict
  · cases hverdict
  · rename_i w hfind
    refine ⟨w, List.mem_of_find?_eq_some hfind, key_of_find? hfind, ?_⟩
    dsimp only at hverdict
    split at hverdict
    · rename_i ended hpause
      rw [Option.ite_none_right_eq_some] at hverdict
      obtain ⟨rfl, hdone⟩ := hverdict
      exact .inl ⟨hpause, (Option.some.inj hdone).symm⟩
    · rename_i guest arrived promised hpause
      rw [Option.ite_none_right_eq_some] at hverdict
      rw [hpause]
      exact .inr (.inl hverdict.2)
    · generalize hglance : s.latches.glance Signal.once w.pause.awaited _ = result at hverdict
      obtain ⟨glance, latches⟩ := result
      cases glance with
      | fired index =>
        obtain ⟨signal, hsignal, hraised, hfirst, -⟩ := Latches.glance_fired hglance
        exact .inr (.inr ⟨some index, hverdict, .fired hsignal hraised hfirst⟩)
      | timedOut =>
        obtain ⟨hdown, hover, -⟩ := Latches.glance_timedOut hglance
        exact .inr (.inr ⟨none, hverdict, .timedOut hdown hover⟩)
      | waiting => cases hverdict

end LocalPlay.Session
