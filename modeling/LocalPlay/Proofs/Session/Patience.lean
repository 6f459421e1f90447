import LocalPlay.Proofs.Session.Moment
import LocalPlay.Proofs.Session.Passing

/-!
# Calls end in time

A call waits for three things at most, one after the other: the handshake, the answer to its
request, and the address that the host of a guest assigns. Every wait has a limit of its own, so
what a call waits for says how long after its beginning it waits at the latest: `Waits`. In a
punctual run a call that has not ended is `Pending`: the deadline of its wait has not passed, and is
not later than that. And a settled session has nobody left whose deadline has come.
-/

namespace LocalPlay.Session

open Net Wire Overlay Timing

/-- How long a call takes at the most. Calls without patience do not wait for anyone outside. -/
def Call.patience (timeouts : Timeouts) : Call → Option Nat
  | operate (.scan _) => some (timeouts.failure + timeouts.scan)
  | operate _ => some (3 * timeouts.failure)
  | reject _ => some timeouts.inactive
  | _ => none

/-- What a call waits for, and how long after its beginning at the latest. -/
inductive Call.Waits (timeouts : Timeouts) : Call → Pause → Nat → Prop
  | handshake (operation : Operation) :
    Waits timeouts (.operate operation) (.handshake operation) timeouts.failure
  | answer (operation : Operation) :
    Waits timeouts (.operate operation) operation.pause
      (timeouts.failure + operation.patience timeouts)
  | address {operation : Operation} (hconfirmed : operation.pause.confirmed?.isSome) (guest : Nat)
      (arrived : Option OverlayConfig) (outcome : Outcome) :
    Waits timeouts (.operate operation) (.address guest arrived outcome)
      (timeouts.failure + operation.patience timeouts + timeouts.failure)
  | removal (removal : Removal) : Waits timeouts (.reject removal) .rejectReply timeouts.inactive

/-- The call's deadline has not passed, and is in time for a call that began at `start`. To wait for
the end of the receive loop takes no time. -/
def InTime (s : Session) (start : Nat) (call : Call) (w : Waiting) : Prop :=
  (∃ ended, w.pause = .cleanup ended) ∨
    ∃ limit deadline, call.Waits s.timeouts w.pause limit ∧ w.deadline = some deadline ∧
      s.clock ≤ deadline ∧ deadline ≤ start + limit

/-- The call that began at `start` waits. -/
def Pending (s : Session) (start id : Nat) (call : Call) : Prop :=
  ∃ w ∈ s.waiting, w.id = id ∧ s.InTime start call w

variable {s : Session} {start id : Nat} {call : Call}

/-! ### What a call waits for -/

/-- An answer is all there, or not at all. -/
theorem Operation.eq_pause_of_plan (operation : Operation) {pause : Pause}
    (hplan : pause.plan = operation.pause.plan) : pause = operation.pause := by
  cases pause with
  | address guest arrived outcome => cases operation <;> cases hplan
  | cleanup ended => cases operation <;> cases hplan
  | _ => exact hplan.trans (by cases operation <;> rfl)

namespace Call

variable {timeouts : Timeouts} {pause before : Pause} {limit timeout : Nat}

theorem Waits.le_patience (h : call.Waits timeouts pause limit) :
    ∃ patience, call.patience timeouts = some patience ∧ limit ≤ patience := by
  cases h with
  | handshake operation =>
    cases operation with
    | scan filter => exact ⟨_, rfl, by omega⟩
    | _ => exact ⟨_, rfl, by omega⟩
  | answer operation =>
    cases operation with
    | scan filter => exact ⟨_, rfl, Nat.le_refl _⟩
    | _ => exact ⟨_, rfl, by simp only [Operation.patience]; omega⟩
  | @address operation hconfirmed =>
    cases operation with
    | scan filter => cases hconfirmed
    | _ => exact ⟨_, rfl, by simp only [Operation.patience]; omega⟩
  | removal => exact ⟨_, rfl, Nat.le_refl _⟩

/-- What has arrived for the call does not change how long it waits. -/
theorem Waits.of_plan (h : call.Waits timeouts before limit) (hplan : pause.plan = before.plan) :
    call.Waits timeouts pause limit := by
  cases h with
  | handshake operation =>
    cases pause with
    | handshake other =>
      obtain rfl := Pause.handshake.inj hplan
      exact .handshake other
    | _ => cases hplan
  | answer operation =>
    rw [operation.eq_pause_of_plan hplan]
    exact .answer operation
  | address hconfirmed guest arrived outcome =>
    cases pause with
    | address other arrived' outcome' => exact .address hconfirmed other arrived' outcome'
    | _ => cases hplan
  | removal removal =>
    cases pause with
    | rejectReply => exact .removal removal
    | _ => cases hplan

theorem First.waits (h : call.First timeouts (some timeout) pause) :
    ∃ limit, call.Waits timeouts pause limit ∧ timeout ≤ limit := by
  generalize hsome : some timeout = timeout? at h
  cases h with
  | handshake operation =>
    obtain rfl := Option.some.inj hsome
    exact ⟨_, .handshake operation, Nat.le_refl _⟩
  | operate operation =>
    obtain rfl := Option.some.inj hsome
    exact ⟨_, .answer operation, Nat.le_add_left _ _⟩
  | reject removal =>
    obtain rfl := Option.some.inj hsome
    exact ⟨_, .removal removal, Nat.le_refl _⟩
  | stop => cases hsome
  | leaveAndStop => cases hsome

/-- Waits only follow each other as far as the patience allows for. -/
theorem Waits.next (h : call.Waits timeouts before limit)
    (hnext : before.Next timeouts timeout pause) :
    call.Waits timeouts pause (limit + timeout) := by
  cases hnext with
  | operate operation =>
    generalize hbefore : Pause.handshake operation = before at h
    cases h with
    | handshake other =>
      obtain rfl := Pause.handshake.inj hbefore
      exact .answer operation
    | answer other =>
      cases other with
      | _ => cases hbefore
    | address => cases hbefore
    | removal => cases hbefore
  | awaitAddress hconfirmed guest arrived outcome =>
    cases h with
    | handshake => cases hconfirmed
    | answer operation => exact .address hconfirmed guest arrived outcome
    | address => cases hconfirmed
    | removal => cases hconfirmed

end Call

/-! ### Acts -/

namespace Act

variable {a b : Act}

/-- Acts that leave calls as they are leave them their time. -/
theorem Frames.pending (h : Frames a b) (hpending : a.session.Pending start id call) :
    b.session.Pending start id call := by
  obtain ⟨w, hw, rfl, htime⟩ := hpending
  obtain ⟨other, hother, hbare⟩ := Waiting.exists_of_bare h.waiting.symm hw
  obtain ⟨hid, hdeadline, hplan⟩ := Waiting.mk.inj hbare
  refine ⟨other, hother, hid, ?_⟩
  rcases htime with ⟨ended, hpause⟩ | ⟨limit, deadline, hwaits, hown, hclock, hlimit⟩
  · rw [hpause] at hplan
    cases hcleanup : other.pause with
    | cleanup ended => exact .inl ⟨ended, hcleanup⟩
    | _ => rw [hcleanup] at hplan; cases hplan
  · refine .inr ⟨limit, deadline, ?_, hdeadline.trans hown, ?_, hlimit⟩
    · rw [h.timeouts]
      exact hwaits.of_plan hplan
    · rw [h.clock]
      exact hclock

theorem pending_pause (hpending : a.session.Pending start id call) (other : Nat)
    (timeout : Option Nat) (pause : Pause) :
    (a.pause other timeout pause).session.Pending start id call := by
  obtain ⟨w, hw, hid, htime⟩ := hpending
  exact ⟨w, List.mem_append_left _ hw, hid, htime⟩

/-- A call that begins waits from now on, if it does not end at once. -/
theorem pending_begin (a : Act) (id : Nat) (call : Call) :
    (a.begin id call).session.Pending a.session.clock id call ∨
      ∃ outcome, .finished id outcome ∈ (a.begin id call).told := by
  have hbegins := a.begins id call
  generalize a.begin id call = b at hbegins ⊢
  cases hbegins with
  | finishes _ hfinished => exact .inr hfinished
  | @pauses b timeout pause hcalm hfirst =>
    refine .inl ⟨_, List.mem_concat_self, rfl, ?_⟩
    cases timeout with
    | none =>
      generalize hnone : (none : Option Nat) = timeout? at hfirst
      cases hfirst with
      | stop => exact .inl ⟨false, rfl⟩
      | leaveAndStop => exact .inl ⟨false, rfl⟩
      | _ => cases hnone
    | some timeout =>
      obtain ⟨limit, hwaits, hlimit⟩ := hfirst.waits
      refine .inr ⟨limit, _, ?_, rfl, Nat.le_add_right _ _, ?_⟩
      · exact hcalm.timeouts ▸ hwaits
      · rw [hcalm.clock]
        exact Nat.add_le_add_left hlimit _

/-- Other calls that begin do not take time from this one. -/
theorem pending_begin_other (hpending : a.session.Pending start id call) (other : Nat)
    (later : Call) : (a.begin other later).session.Pending start id call := by
  have hbegins := a.begins other later
  generalize a.begin other later = b at hbegins ⊢
  cases hbegins with
  | finishes hcalm => exact hcalm.pending hpending
  | pauses hcalm => exact pending_pause (hcalm.pending hpending) _ _ _

theorem pending_endWait (hpending : a.session.Pending start id call) {other : Nat}
    (hother : other ≠ id) (latches : Latches Signal) :
    (a.endWait other latches).session.Pending start id call := by
  obtain ⟨w, hw, hid, htime⟩ := hpending
  refine ⟨w, List.mem_filter.mpr ⟨hw, decide_eq_true ?_⟩, hid, htime⟩
  rw [hid]
  exact hother.symm

/-- A call that looks waits on, ends, or waits for the next thing, for which it has time. -/
theorem pending_resume (hpending : a.session.Pending start id call)
    (hnumbered : Numbered (a.session.waiting.map (·.id)) a.session.calls) (other : Nat) :
    (a.resume other).session.Pending start id call ∨
      ∃ outcome, .finished id outcome ∈ (a.resume other).told := by
  have hresumes := a.resumes other
  generalize a.resume other = b at hresumes ⊢
  cases hresumes with
  | absent => exact .inl hpending
  | waitsOn => exact .inl hpending
  | finishes _ _ hrests hfinished =>
    by_cases hother : other = id
    · exact .inr (hother ▸ hfinished)
    · exact .inl (hrests.calm.pending (pending_endWait hpending hother _))
  | @pauses w latches b timeout pause hfind _ _ hrests hnext =>
    by_cases hother : other = id
    · subst hother
      obtain ⟨own, hown, rfl, htime⟩ := hpending
      obtain rfl : own = w := by
        rw [hnumbered.find?_eq hown] at hfind
        exact Option.some.inj hfind
      refine .inl ⟨_, List.mem_concat_self, rfl, ?_⟩
      rcases htime with ⟨ended, hpause⟩ | ⟨limit, deadline, hwaits, -, hclock, hlimit⟩
      · rw [hpause] at hnext
        cases hnext with
        | awaitAddress hconfirmed => cases hconfirmed
      · have hframe := hrests.calm.toFrames
        refine .inr ⟨limit + timeout, _, ?_, rfl, Nat.le_add_right _ _, ?_⟩
        · exact hframe.timeouts ▸ hwaits.next hnext
        · have hsame : b.session.clock = a.session.clock := hframe.clock
          dsimp only
          omega
    · exact .inl (pending_pause (hrests.calm.pending (pending_endWait hpending hother _)) _ _ _)

theorem frames_cleanup (a : Act) : Frames a a.cleanup := by
  have hcleans := a.cleans
  generalize a.cleanup = b at hcleans ⊢
  cases hcleans with
  | nothing => exact .refl a
  | idle hrests => exact hrests.calm.toFrames.trans ⟨rfl, rfl, rfl, rfl, List.prefix_append _ _⟩
  | @call b id hrests =>
    refine hrests.calm.toFrames.trans ⟨rfl, rfl, rfl, ?_, List.prefix_append _ _⟩
    exact (List.map_map ..).trans (List.map_congr_left fun w _ => w.bare_released id)

theorem frames_atHost (a : Act) (job : Job) : Frames a (a.perform (.host job)) := by
  rw [perform, atHost]
  split
  · rename_i host hhost
    obtain ⟨ready, hadopt⟩ := a.adopt_eq (host.perform a.session.clock a.session.link job)
    rw [hadopt]
    exact ⟨rfl, rfl, rfl, rfl, List.prefix_append _ _⟩
  · exact .refl a

theorem pending_perform (hpending : a.session.Pending start id call)
    (hnumbered : Numbered (a.session.waiting.map (·.id)) a.session.calls) (activity : Activity) :
    (a.perform activity).session.Pending start id call ∨
      ∃ outcome, .finished id outcome ∈ (a.perform activity).told := by
  cases activity with
  | resume other => exact pending_resume hpending hnumbered other
  | cleanup => exact .inl (a.frames_cleanup.pending hpending)
  | idleStop => exact .inl (((Calm.refl a).stopReceiver .idleCountdown).pending hpending)
  | host job => exact .inl ((a.frames_atHost job).pending hpending)

end Act

/-! ### Runs -/

/-- Every move leaves a call its time, unless it ends it. -/
theorem pending_move (hpending : s.Pending start id call)
    (hnumbered : Numbered (s.waiting.map (·.id)) s.calls) {m : Move} (hpunctual : s.Punctual [m]) :
    (s.move m).session.Pending start id call ∨
      ∃ outcome, .finished id outcome ∈ (s.move m).told := by
  cases m with
  | reach time =>
    obtain ⟨w, hw, hid, htime⟩ := hpending
    obtain ⟨ready, hreach, -⟩ := s.exists_reach_eq time
    rw [move, hreach]
    refine .inl ⟨w, hw, hid, htime.imp_right ?_⟩
    rintro ⟨limit, deadline, hwaits, hdeadline, -, hlimit⟩
    exact ⟨limit, deadline, hwaits, hdeadline, hpunctual [] time [] rfl w hw deadline hdeadline,
      hlimit⟩
  | turn activity =>
    rw [move]
    split
    · exact Act.pending_perform (a := { session := { s with ready := s.ready.erase activity } })
        hpending hnumbered activity
    · exact .inl hpending
  | event event =>
    cases event with
    | call later =>
      exact .inl (Act.pending_begin_other (a := { session := { s with calls := s.calls + 1 } })
        hpending s.calls later)
    | _ => exact .inl ((s.calm_event (by simp)).pending hpending)

/-- A call that was begun in a punctual run has ended or has still time. -/
theorem Sound.pending_after (h : s.Sound) (call : Call) {later : List Move}
    (hpunctual : s.Punctual (.event (.call call) :: later)) :
    (s.after (.event (.call call) :: later)).session.Pending s.clock s.calls call ∨
      ∃ outcome, .finished s.calls outcome ∈
        (s.after (.event (.call call) :: later)).told := by
  induction later using List.reverseRecOn with
  | nil => exact Act.pending_begin { session := { s with calls := s.calls + 1 } } s.calls call
  | append_singleton later m ih =>
    rw [← List.cons_append, punctual_append] at hpunctual
    obtain ⟨hbefore, hlast⟩ := hpunctual
    rw [← List.cons_append, after_concat, Act.next, Act.followedBy]
    rcases ih hbefore with hpending | ⟨outcome, hfinished⟩
    · have hsound := h.after (.event (.call call) :: later)
      rcases pending_move hpending hsound.numbered hlast with hpending | ⟨outcome, hfinished⟩
      · exact .inl hpending
      · exact .inr ⟨outcome, List.mem_append_right _ hfinished⟩
    · exact .inr ⟨outcome, List.mem_append_left _ hfinished⟩

/-- In a settled session a call that is pending is younger than its patience. -/
theorem Sound.young (h : s.Sound) (hready : s.ready = []) (hpending : s.Pending start id call) :
    ∃ patience, call.patience s.timeouts = some patience ∧ s.clock < start + patience := by
  obtain ⟨w, hw, -, htime⟩ := hpending
  obtain ⟨hstill, -, hdeadlines⟩ := h.settled hready
  rcases htime with ⟨ended, hpause⟩ | ⟨limit, deadline, hwaits, hdeadline, -, hlimit⟩
  · have hlimited := (hstill w hw).2
    rw [hpause] at hlimited
    cases hlimited
  · obtain ⟨patience, hpatience, hle⟩ := hwaits.le_patience
    have hahead := hdeadlines deadline (mem_deadlines_of_waiting hw hdeadline)
    exact ⟨patience, hpatience, by omega⟩

theorem Step.timeouts_eq {origin s t : Session} {m : Move} {told : List Notice}
    (h : Step origin m s t told) : t.timeouts = s.timeouts := by
  cases h with
  | _ => rfl

theorem Steps.timeouts_eq {origin s t : Session} {m : Move} {told : List Notice}
    (h : Steps origin m s t told) : t.timeouts = s.timeouts := by
  induction h with
  | refl => rfl
  | tail _ hstep ih => exact hstep.timeouts_eq.trans ih

theorem timeouts_after (s : Session) (moves : List Move) :
    (s.after moves).session.timeouts = s.timeouts := by
  induction moves using List.reverseRecOn with
  | nil => rfl
  | append_singleton moves m ih =>
    rw [after_concat]
    exact (steps_move _ m).timeouts_eq.trans ih

theorem sound_create {settings : Settings} {interfaces : Interfaces}
    {localAddress : Except IoError Endpoint}
    (hcreate : create settings interfaces localAddress = .ok s) : s.Sound := by
  obtain ⟨relay, rfl⟩ := create_eq hcreate
  exact {
    alert := {
      calls := fun _ => nofun
      stops := fun _ => nofun
      ending := fun _ => nofun
      closed := fun _ => .inl rfl
      idle := fun _ => nofun
      hosted := fun _ => nofun
      applicants := fun _ => nofun }
    numbered := .nil 0 }

/-- No call hangs: whatever happens, and in whatever order the turns come, when a session is settled
each call that was begun in it has ended or is younger than its patience, and calls without patience
have ended. All it takes is that the clock is never set past the deadline of a call. Steps and waits
see to that, they settle the session, and all the time of a wait passes. -/
theorem calls_end_in_time {settings : Settings} {interfaces : Interfaces}
    {localAddress : Except IoError Endpoint}
    (hcreate : create settings interfaces localAddress = .ok s) {moves : List Move}
    (hpunctual : s.Punctual moves) :
    let t := (s.after moves).session
    (t.ready = [] → ∀ before call later, moves = before ++ .event (.call call) :: later →
      (∃ outcome, .finished (s.after before).session.calls outcome ∈ (s.after moves).told) ∨
        ∃ patience, call.patience settings.timeouts = some patience ∧
          t.clock < (s.after before).session.clock + patience) ∧
    (∀ event, ∃ activities : List Activity,
      s.Settles (moves ++ .event event :: activities.map .turn)
        ((s.after moves).followedBy ⟨(t.step event).2.1, (t.step event).2.2⟩)) ∧
    (t.ready = [] → ∀ millis, (∃ more, s.Settles (moves ++ more)
        ((s.after moves).followedBy ⟨(t.wait millis).1, (t.wait millis).2⟩)) ∧
      (t.wait millis).1.clock = t.clock + millis) := by
  intro t
  have hsound := sound_create hcreate
  have htimeouts : s.timeouts = settings.timeouts := by
    obtain ⟨relay, rfl⟩ := create_eq hcreate
    rfl
  have ht : t.Sound := hsound.after moves
  refine ⟨fun hready before call later hmoves => ?_, fun event => ?_, fun hready millis => ?_⟩
  · subst hmoves
    have hcalled := (punctual_append.mp hpunctual).2
    have hafter := after_append s before (.event (.call call) :: later)
    rcases (hsound.after before).pending_after call hcalled with hpending | ⟨outcome, hfinished⟩
    · have hsame : t = ((s.after before).session.after (.event (.call call) :: later)).session := by
        show (s.after _).session = _
        rw [hafter, Act.followedBy]
      obtain ⟨patience, hpatience, hyoung⟩ := ht.young hready (hsame ▸ hpending)
      rw [timeouts_after, htimeouts] at hpatience
      exact .inr ⟨patience, hpatience, hyoung⟩
    · refine .inl ⟨outcome, ?_⟩
      rw [hafter]
      exact List.mem_append_right _ hfinished
  · obtain ⟨activities, hsettles⟩ := ht.step event
    exact ⟨activities, .append hpunctual hsettles⟩
  · obtain ⟨⟨more, hsettles⟩, hclock⟩ := ht.wait hready millis
    exact ⟨⟨more, .append hpunctual hsettles⟩, hclock⟩

def Notice.isFinish : Notice → Bool
  | finished _ _ => true
  | _ => false

/-- The relay answers a scan's handshake at the last moment, and then not the scan. Until the last
moment of its patience the scan has not ended. -/
theorem calls_end_in_time_of_scan :
    let called := [sampleCall (.scan default), .turn (.resume 0)]
    let greeted := called ++ [.reach 4000] ++
      [sampleDatagram (.hello default), .turn (.resume 0), .turn (.resume 0)]
    let moves := greeted ++ [.reach 4999]
    create {} (.ok []) (.ok sampleAddress) = .ok sample ∧ sample.Punctual moves ∧
      (sample.after moves).session.ready = [] ∧
      (sample.after moves).told.any Notice.isFinish = false ∧
      ∃ patience, Call.patience {} (.operate (.scan default)) = some patience ∧
        (sample.after moves).session.clock < 0 + patience := by
  intro called greeted moves
  have hcreate : create {} (.ok []) (.ok sampleAddress) = .ok sample := rfl
  have hfirst : ∀ deadline ∈ (sample.after called).session.deadlines, 4000 ≤ deadline := by
    decide +kernel
  have hsecond : ∀ deadline ∈ (sample.after greeted).session.deadlines, 4999 ≤ deadline := by
    decide +kernel
  have hpunctual : sample.Punctual moves := by
    refine punctual_append.mpr ⟨punctual_append.mpr ⟨punctual_append.mpr ⟨?_, ?_⟩, ?_⟩, ?_⟩
    · exact punctual_of_not_reach _ (by simp [called, sampleCall])
    · exact punctual_reach hfirst
    · exact punctual_of_not_reach _ (by simp [sampleDatagram])
    · exact punctual_reach hsecond
  have hready : (sample.after moves).session.ready = [] := by decide +kernel
  have hsilent : (sample.after moves).told.any Notice.isFinish = false := by decide +kernel
  refine ⟨hcreate, hpunctual, hready, hsilent, ?_⟩
  have hends := (calls_end_in_time hcreate hpunctual).1 hready [] _ _ rfl
  rcases hends with ⟨outcome, hfinished⟩ | hyoung
  · exact absurd rfl (List.any_eq_false.mp hsilent _ hfinished)
  · exact hyoung

end LocalPlay.Session
