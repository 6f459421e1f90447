import LocalPlay.Proofs.Session.Stretches.Warnings

/-!
# What calls report, and what they take from it

A call ends with a report. What it reports is decided in the stretch in which it ends, by the link,
by the error that is stored, and by whether the session is a guest; `answer?` and `verdict?` say how.
Whether proxies are permitted is not among it.

On their way calls clear up what errors have left: `Clears` says that a stretch of a call brings no
error and no alarm, and that no call begins to listen for errors while there is an old alarm.
-/

namespace LocalPlay.Session

open Net Wire Overlay Timing

/-! ### Reports -/

def Notice.report? : Notice → Option (Nat × Outcome)
  | finished call outcome => some (call, outcome)
  | _ => none

/-- The calls that have ended, each with what it has come to. -/
def reports (told : List Notice) : List (Nat × Outcome) :=
  told.filterMap Notice.report?

theorem reports_append (told more : List Notice) :
    reports (told ++ more) = reports told ++ reports more :=
  List.filterMap_append

theorem mem_reports {told : List Notice} {call : Nat} {outcome : Outcome} :
    (call, outcome) ∈ reports told ↔ .finished call outcome ∈ told := by
  rw [reports, List.mem_filterMap]
  constructor
  · rintro ⟨notice, hmem, hnotice⟩
    cases notice with
    | finished =>
      obtain ⟨rfl, rfl⟩ := Option.some.inj hnotice
      exact hmem
    | _ => cases hnotice
  · intro hmem
    exact ⟨_, hmem, rfl⟩

/-- Of one call at most one thing is reported. -/
theorem eq_of_mem_toList {own call : Nat} {answer : Option Outcome} {outcome : Outcome}
    (hmem : (call, outcome) ∈ (answer.map (own, ·)).toList) : own = call ∧ answer = some outcome := by
  rw [Option.mem_toList, Option.map_eq_some_iff] at hmem
  obtain ⟨given, hanswer, hsame⟩ := hmem
  obtain ⟨hcall, houtcome⟩ := Prod.mk.inj hsame
  exact ⟨hcall, houtcome ▸ hanswer⟩

theorem Keeps.reports_eq_nil {s t : Session} {more : List Notice} (h : Keeps s t more) :
    reports more = [] := by
  refine List.filterMap_eq_nil_iff.mpr fun notice hmem => ?_
  cases notice with
  | finished call outcome => exact absurd hmem (h.unfinished call outcome)
  | _ => rfl

/-- What an operation comes to that gets no link. -/
def Operation.failure : Operation → Outcome
  | scan _ => .networks []
  | createPublic _ _ | createPrivate _ _ => .confirmed false
  | connectPublic _ | connectPrivate _ => .joined .unknown

/-- What a call comes to that ends as soon as it has begun. -/
def Call.answer? (s : Session) : Call → Option Outcome
  | operate operation =>
    if s.phase = .idle ∧ s.openFault.isSome then some operation.failure else none
  | reject _ => if s.inNetwork then none else some (.removed false)
  | setAdvertiseData _ | setJoinPolicy _ | leaveNetwork => some .done
  | stop | leaveAndStop => if s.receiver = .listening then none else some .done
  | sendTraffic traffic =>
    let outcome (wrap : SendError → SessionError) (refusal : Option SendError) : Outcome :=
      match refusal with
      | none => .done
      | some error => .failed (wrap error)
    if s.phase = .idle then
      some (.failed .notStarted)
    else
      match s.membership with
      | some membership =>
        let target := s.targetOf membership.guest.endpoint
        some (outcome (.proxy ∘ .linkDown) (s.link target traffic.toPacket))
      | none => some (outcome .transport (s.link .relay traffic.toPacket))

/-- What only operations come to. -/
def Outcome.isOperational : Outcome → Bool
  | networks _ | confirmed _ | joined _ => true
  | removed _ | done | failed _ => false

/-- Operations that end as soon as they have begun have got no link. -/
theorem Call.exists_operation_of_answer {s : Session} {call : Call} {outcome : Outcome}
    (hanswer : call.answer? s = some outcome) (hoperational : outcome.isOperational = true) :
    ∃ operation, call = .operate operation ∧ (s.phase = .idle ∧ s.openFault.isSome = true) ∧
      operation.failure = outcome := by
  cases call with
  | operate operation =>
    rw [answer?, Option.ite_none_right_eq_some] at hanswer
    exact ⟨operation, rfl, hanswer.1, Option.some.inj hanswer.2⟩
  | reject removal =>
    rw [answer?, Option.ite_none_left_eq_some] at hanswer
    obtain rfl := Option.some.inj hanswer.2
    exact absurd hoperational Bool.false_ne_true
  | stop =>
    rw [answer?, Option.ite_none_left_eq_some] at hanswer
    obtain rfl := Option.some.inj hanswer.2
    exact absurd hoperational Bool.false_ne_true
  | leaveAndStop =>
    rw [answer?, Option.ite_none_left_eq_some] at hanswer
    obtain rfl := Option.some.inj hanswer.2
    exact absurd hoperational Bool.false_ne_true
  | sendTraffic traffic =>
    rw [answer?] at hanswer
    dsimp only at hanswer
    repeat' split at hanswer
    all_goals
      obtain rfl := Option.some.inj hanswer
      exact absurd hoperational Bool.false_ne_true
  | _ =>
    obtain rfl := Option.some.inj hanswer
    exact absurd hoperational Bool.false_ne_true

/-- What a call comes to that goes on after this pause, unless it waits for more. -/
def Pause.verdict? (s : Session) (index : Option Nat) : Pause → Option Outcome
  | handshake operation =>
    if s.phase ≠ .idle ∧ index = some 0 then none else some operation.failure
  | scanReplies => some (.networks (if index = some 0 ∧ s.lastError = .none then s.networks else []))
  | confirmation =>
    if index.isSome then
      if s.membership.isSome then none else some (.confirmed true)
    else
      some (.confirmed false)
  | joinReply =>
    if s.lastError ≠ .none then
      some (.joined s.lastError)
    else if index ≠ some 0 then
      some (.joined .connectTimeout)
    else if s.membership.isSome then
      none
    else
      some (.joined .none)
  | rejectReply => some (.removed (index = some 0 ∧ s.lastError = .none))
  | address _ _ _ | cleanup _ => none

/-- What a call comes to that looks now, unless it waits on. -/
def verdict? (s : Session) (call : Nat) : Option Outcome :=
  match s.waiting.find? (·.id == call) with
  | none => none
  | some w =>
    let timeOver := w.deadline.any (· ≤ s.clock)
    match w.pause with
    | .cleanup ended => if ended then some .done else none
    | .address _ arrived outcome => if arrived.isSome ∨ timeOver then some outcome else none
    | pause =>
      match (s.latches.glance Signal.once pause.awaited timeOver).1 with
      | .fired index => pause.verdict? s (some index)
      | .timedOut => pause.verdict? s none
      | .waiting => none

namespace Act

variable {a b : Act} (call : Nat)

theorem Heeds.reports_eq (h : Heeds a b) : reports b.told = reports a.told := by
  obtain ⟨more, htold, hfollows⟩ := h
  rw [htold, reports_append, hfollows.reports_eq_nil, List.append_nil]

theorem reports_finish (a : Act) (outcome : Outcome) :
    reports (a.finish call outcome).told = reports a.told ++ [(call, outcome)] :=
  reports_append ..

theorem reports_asked (a : Act) (operation : Operation) :
    reports (a.asked call operation).told = reports a.told := by
  obtain ⟨deadline, refusal, hasked⟩ := a.asked_eq call operation
  rw [hasked, reports_append]
  exact List.append_nil _

theorem reports_operate (a : Act) (operation : Operation) :
    reports (a.operate call operation).told = reports a.told := by
  have hupdate (a : Act) : reports (a.updatePassphrase call).told = reports a.told :=
    ((Heeds.refl a).updatePassphrase call).reports_eq
  rw [operate_eq]
  cases operation with
  | scan filter => rw [reports_asked, hupdate]
  | createPublic request advertised => rw [hupdate, reports_asked]
  | createPrivate request advertised => rw [reports_asked, hupdate]
  | connectPublic request => rw [reports_asked]
  | connectPrivate request => rw [reports_asked]

theorem reports_openLink (a : Act) (operation : Operation) :
    reports (a.openLink call operation).told = reports a.told := by
  obtain ⟨deadline, refusal, hopen⟩ := a.openLink_eq call operation
  rw [hopen, reports_append, reports_append]
  simp [reports, Notice.report?]

theorem reports_disposeHost (a : Act) : reports a.disposeHost.told = reports a.told := by
  obtain ⟨ready, notices, hdispose⟩ := a.disposeHost_eq
  have hnone : reports (notices.map .host) = [] := by
    rw [reports, List.filterMap_map]
    exact List.filterMap_eq_nil_iff.mpr fun _ _ => rfl
  rw [hdispose, reports_append, hnone, List.append_nil]

theorem reports_giveUp (a : Act) (operation : Operation) :
    reports (a.giveUp call operation).told = reports a.told ++ [(call, operation.failure)] := by
  cases operation with
  | scan filter =>
    rw [giveUp, finishScan]
    exact reports_finish ..
  | createPublic request advertised => rw [giveUp, reports_finish, reports_disposeHost]; rfl
  | createPrivate request advertised => rw [giveUp, reports_finish, reports_disposeHost]; rfl
  | connectPublic request => exact reports_finish ..
  | connectPrivate request => exact reports_finish ..

theorem reports_awaitAddress (a : Act) (outcome : Outcome) :
    reports (a.awaitAddress call outcome).told = reports a.told ++
      ((if a.session.membership.isSome then none else some outcome).map (call, ·)).toList := by
  rw [awaitAddress]
  split
  · rename_i membership hguest
    rw [hguest]
    exact (List.append_nil _).symm
  · rename_i hguest
    rw [hguest, reports_finish]
    rfl

/-- A call that goes on ends with its verdict, or waits for more. -/
theorem reports_goOn (a : Act) (index : Option Nat) (pause : Pause) :
    reports (a.goOn call index pause).told =
      reports a.told ++ ((pause.verdict? a.session index).map (call, ·)).toList := by
  cases pause with
  | handshake operation =>
    rw [goOn, Pause.verdict?]
    split
    · rw [reports_operate, ((Heeds.refl a).updatePassphrase call).reports_eq]
      exact (List.append_nil _).symm
    · rw [reports_giveUp]
      rfl
  | scanReplies =>
    rw [goOn, finishScan, Pause.verdict?]
    dsimp only [takeError]
    rw [reports_finish]
    simp only [decide_eq_true_eq]
    rfl
  | confirmation =>
    have hallowed : reports (if a.session.p2p then a else a.disposeHost).told = reports a.told := by
      split
      · rfl
      · exact a.reports_disposeHost
    have hguest : (if a.session.p2p then a else a.disposeHost).session.membership =
        a.session.membership := by
      split
      · rfl
      · obtain ⟨ready, notices, hdispose⟩ := a.disposeHost_eq
        rw [hdispose]
    rw [goOn, Pause.verdict?]
    split
    · rw [reports_awaitAddress, hallowed, hguest]
    · rw [reports_finish, reports_disposeHost, hallowed]
      rfl
  | joinReply =>
    rw [goOn, Pause.verdict?]
    dsimp only [takeError]
    split
    · exact reports_finish ..
    · split
      · exact reports_finish ..
      · exact reports_awaitAddress ..
  | rejectReply => exact reports_finish ..
  | address guest arrived outcome => exact (List.append_nil _).symm
  | cleanup ended => exact (List.append_nil _).symm

/-- A call that begins ends at once with its answer, or waits. -/
theorem reports_begin (a : Act) (begun : Call) :
    reports (a.begin call begun).told =
      reports a.told ++ ((begun.answer? a.session).map (call, ·)).toList := by
  have hsend (a : Act) (packet : Packet) :
      reports (a.postInNetwork call packet).told = reports a.told :=
    ((Heeds.refl a).postInNetwork call packet).reports_eq
  have hstop (a : Act) : reports (a.beginStop call).told = reports a.told ++
      ((if a.session.receiver = .listening then none else some .done).map (call, ·)).toList := by
    have hheeds := (Heeds.refl a).stopReceiver (.call call)
    rw [beginStop]
    cases hreceiver : a.session.receiver with
    | listening =>
      rw [stopReceiver, hreceiver] at hheeds ⊢
      exact hheeds.reports_eq.trans (List.append_nil _).symm
    | _ =>
      rw [stopReceiver, hreceiver]
      exact reports_finish ..
  cases begun with
  | operate operation =>
    have hprepared := ((Heeds.refl a).prepare operation).reports_eq
    rw [begin, beginOperation_eq, Call.answer?]
    split
    · rename_i hopen
      rw [reports_operate, hprepared, if_neg (fun hidle => hopen hidle.1)]
      exact (List.append_nil _).symm
    · rename_i hidle
      split
      · rename_i hfault
        rw [reports_giveUp, if_pos ⟨Decidable.of_not_not hidle, hfault⟩]
        exact congrArg (· ++ _) hprepared
      · rename_i hsound
        rw [reports_openLink, hprepared, if_neg (fun hfault => hsound hfault.2)]
        exact (List.append_nil _).symm
  | reject removal =>
    rw [begin, Call.answer?]
    split
    · exact (reports_append ..).trans (congrArg _ rfl)
    · exact reports_finish ..
  | setAdvertiseData data => rw [begin, reports_finish, hsend]; rfl
  | setJoinPolicy policy => rw [begin, reports_finish, hsend]; rfl
  | leaveNetwork =>
    rw [begin, reports_finish, ((Heeds.refl _).leave).reports_eq, hsend]
    rfl
  | stop => exact hstop a
  | leaveAndStop => exact hstop (a.update fun s => { s with idle := s.idle.disable })
  | sendTraffic traffic =>
    have hpost (target : Target) (packet : Packet) :
        reports (a.post (some call) target packet).told = reports a.told :=
      ((Heeds.refl a).post _ _ _).reports_eq
    rw [begin, sendTraffic, Call.answer?]
    dsimp only
    split
    · exact reports_finish ..
    · cases a.session.membership with
      | some membership =>
        rw [reports_finish, hpost]
        rfl
      | none =>
        rw [reports_finish, hpost]
        rfl

/-! ### Calls that look whether they can go on -/

/-- What comes of a call that has its turn, and what it reports then. -/
inductive Looks (a : Act) (call : Nat) : Option Outcome → Act → Prop
  | still : Looks a call none a
  | ends {w : Waiting} {outcome : Outcome} (overlay : Option OverlayConfig)
      (hfind : a.session.waiting.find? (·.id == call) = some w)
      (hpause : w.pause = .cleanup true ∧ outcome = .done ∨
        ∃ guest arrived, w.pause = .address guest arrived outcome) :
    Looks a call (some outcome)
      (((a.endPause call).update fun s => { s with overlay }).finish call outcome)
  | goesOn {w : Waiting} {latches : Latches Signal} (index : Option Nat)
      (hfind : a.session.waiting.find? (·.id == call) = some w) (hawaited : w.pause.awaited ≠ [])
      (hraised : latches.isRaised .relayError = a.session.latches.isRaised .relayError) :
    Looks a call (w.pause.verdict? a.session index)
      ((a.endWait call latches).goOn call index w.pause)

/-- A call that waits for latches goes on with the first that is raised, or when its time is over. -/
theorem looks_of_awaited {a : Act} {w : Waiting}
    (hfind : a.session.waiting.find? (·.id == call) = some w) (hawaited : w.pause.awaited ≠ []) :
    let timeOver := w.deadline.any (· ≤ a.session.clock)
    let result := a.session.latches.glance Signal.once w.pause.awaited timeOver
    Looks a call
      (match result.1 with
        | .fired index => w.pause.verdict? a.session (some index)
        | .timedOut => w.pause.verdict? a.session none
        | .waiting => none)
      (match result.1 with
        | .fired index => (a.endWait call result.2).goOn call (some index) w.pause
        | .timedOut => (a.endWait call result.2).goOn call none w.pause
        | .waiting => a) := by
  intro timeOver result
  have hglance : a.session.latches.glance Signal.once w.pause.awaited timeOver = result := rfl
  obtain ⟨glance, latches⟩ := result
  cases glance with
  | fired index =>
    refine .goesOn (some index) hfind hawaited ?_
    obtain ⟨name, -, -, -, hlatches⟩ := Latches.glance_fired hglance
    rw [hlatches]
    cases name with
    | joined => simp [Signal.once]
    | _ => rfl
  | timedOut =>
    obtain ⟨-, -, rfl⟩ := Latches.glance_timedOut hglance
    exact .goesOn none hfind hawaited rfl
  | waiting => exact .still

theorem looks (a : Act) : Looks a call (a.session.verdict? call) (a.resume call) := by
  rw [resume, Session.verdict?]
  cases hfind : a.session.waiting.find? (·.id == call) with
  | none => exact .still
  | some w =>
    obtain ⟨id, deadline, pause⟩ := w
    have hlooks := looks_of_awaited call hfind
    cases pause with
    | cleanup ended =>
      cases ended with
      | true => exact .ends a.session.overlay hfind (.inl ⟨rfl, rfl⟩)
      | false => exact .still
    | address guest arrived outcome =>
      dsimp only
      split
      · exact .ends arrived hfind (.inr ⟨guest, arrived, rfl⟩)
      · exact .still
    | _ => exact hlooks (List.cons_ne_nil _ _)

/-- A call that looks ends with its verdict, or waits on. -/
theorem reports_resume (a : Act) : reports (a.resume call).told =
    reports a.told ++ ((a.session.verdict? call).map (call, ·)).toList := by
  have hlooks := looks call a
  generalize a.session.verdict? call = verdict at hlooks ⊢
  generalize a.resume call = b at hlooks ⊢
  cases hlooks with
  | still => exact (List.append_nil _).symm
  | ends overlay hfind hpause => exact reports_finish call _ _
  | goesOn index hfind hawaited hraised => exact reports_goOn call _ index _

end Act

/-! ### What calls take from the warnings -/

namespace Warnings

/-- What is left after an operation that gets no link. -/
def giveUp (warnings : Warnings) : Operation → Warnings
  | .scan _ => warnings.read
  | _ => warnings

/-- What is left when a call begins. -/
def begin (warnings : Warnings) (s : Session) (call : Nat) : Call → Warnings
  | .operate operation =>
    if s.phase ≠ .idle then
      warnings.await call operation.pause
    else if s.openFault.isSome then
      warnings.giveUp operation
    else
      warnings.await call (.handshake operation)
  | .reject _ => if s.inNetwork then warnings.await call .rejectReply else warnings
  | _ => warnings

/-- What is left when a call goes on after this pause. -/
def goOn (warnings : Warnings) (s : Session) (call : Nat) (index : Option Nat) : Pause → Warnings
  | .handshake operation =>
    if s.phase ≠ .idle ∧ index = some 0 then warnings.await call operation.pause else warnings.read
  | .scanReplies | .joinReply | .rejectReply => warnings.read
  | .confirmation | .address _ _ _ | .cleanup _ => warnings

/-- No error has come, nor an alarm; who listens anew hears nothing yet, and nobody else hears less
than before. -/
structure Clears (call : Nat) (before after : Warnings) : Prop where
  raised : after.raised = true → before.raised = true
  p2p : after.p2p = before.p2p
  fresh : ∀ listener ∈ after.listeners, listener ∈ before.listeners ∨ after.raised = false
  others : ∀ listener ∈ before.listeners, listener.1 ≠ call → listener ∈ after.listeners

variable {call : Nat} {before after last : Warnings}

theorem Clears.refl (call : Nat) (warnings : Warnings) : Clears call warnings warnings where
  raised := id
  p2p := rfl
  fresh _ hmem := .inl hmem
  others _ hmem _ := hmem

theorem Clears.trans (h : Clears call before after) (hmore : Clears call after last) :
    Clears call before last where
  raised hraised := h.raised (hmore.raised hraised)
  p2p := hmore.p2p.trans h.p2p
  fresh listener hmem := by
    rcases hmore.fresh listener hmem with hmem | hquiet
    · refine (h.fresh listener hmem).imp id fun hquiet => ?_
      rw [Bool.eq_false_iff]
      intro hraised
      exact absurd (hmore.raised hraised) (by simp [hquiet])
    · exact .inr hquiet
  others listener hmem hother := hmore.others listener (h.others listener hmem hother) hother

theorem clears_await (call : Nat) (warnings : Warnings) (pause : Pause) :
    Clears call warnings (warnings.await call pause) := by
  rw [await]
  split
  · exact {
      raised := fun hraised => absurd hraised Bool.false_ne_true
      p2p := rfl
      fresh := fun _ _ => .inr rfl
      others := fun _ hmem _ => List.mem_append_left _ hmem }
  · exact .refl call warnings

theorem clears_dismiss (call : Nat) (warnings : Warnings) :
    Clears call warnings (warnings.dismiss call) where
  raised := id
  p2p := rfl
  fresh _ hmem := .inl (List.mem_filter.mp hmem).1
  others _ hmem hother := List.mem_filter.mpr ⟨hmem, decide_eq_true hother⟩

theorem clears_read (call : Nat) (warnings : Warnings) : Clears call warnings warnings.read where
  raised := id
  p2p := rfl
  fresh _ hmem := .inl hmem
  others _ hmem _ := hmem

theorem clears_begin (warnings : Warnings) (s : Session) (call : Nat) (begun : Call) :
    Clears call warnings (warnings.begin s call begun) := by
  cases begun with
  | operate operation =>
    rw [begin]
    split
    · exact clears_await call warnings _
    · split
      · cases operation with
        | scan filter => exact clears_read call warnings
        | _ => exact .refl call warnings
      · exact clears_await call warnings _
  | reject removal =>
    rw [begin]
    split
    · exact clears_await call warnings _
    · exact .refl call warnings
  | _ => exact .refl call warnings

theorem clears_goOn (warnings : Warnings) (s : Session) (call : Nat) (index : Option Nat)
    (pause : Pause) : Clears call warnings (warnings.goOn s call index pause) := by
  cases pause with
  | handshake operation =>
    rw [goOn]
    split
    · exact clears_await call warnings _
    · exact clears_read call warnings
  | scanReplies => exact clears_read call warnings
  | joinReply => exact clears_read call warnings
  | rejectReply => exact clears_read call warnings
  | _ => exact .refl call warnings

end Warnings

namespace Act

variable (call : Nat)

theorem warnings_pause (a : Act) (timeout : Option Nat) (pause : Pause) :
    (a.pause call timeout pause).session.warnings =
      { a.session.warnings with
        listeners := a.session.warnings.listeners ++
          if .relayError ∈ pause.awaited then [(call, pause)] else [] } := by
  have hlistener (deadline : Option Nat) :
      (Waiting.listener? ⟨call, deadline, pause⟩).toList =
        if .relayError ∈ pause.awaited then [(call, pause)] else [] := by
    rw [Waiting.listener?]
    split
    · rfl
    · rfl
  rw [← hlistener (timeout.map (a.session.clock + ·))]
  simp only [Session.warnings, Act.pause, update, List.filterMap_append]
  rfl

theorem warnings_pause_of_deaf (a : Act) (timeout : Option Nat) {pause : Pause}
    (hawaited : .relayError ∉ pause.awaited) :
    (a.pause call timeout pause).session.warnings = a.session.warnings := by
  rw [warnings_pause, if_neg hawaited, List.append_nil]

theorem warnings_asked (a : Act) (operation : Operation) :
    (a.asked call operation).session.warnings =
      a.session.warnings.await call operation.pause := by
  rw [asked, warnings_pause]
  cases operation with
  | _ => simp [Operation.lowered, Operation.pause, Pause.awaited, Warnings.await, Session.warnings,
      post, tell, lower, update]

theorem warnings_updatePassphrase (a : Act) :
    (a.updatePassphrase call).session.warnings = a.session.warnings := by
  rw [session_updatePassphrase]
  rfl

theorem warnings_operate (a : Act) (operation : Operation) :
    (a.operate call operation).session.warnings =
      a.session.warnings.await call operation.pause := by
  rw [operate_eq]
  cases operation with
  | scan filter => rw [warnings_asked, warnings_updatePassphrase]
  | createPublic request advertised => rw [warnings_updatePassphrase, warnings_asked]
  | createPrivate request advertised => rw [warnings_asked, warnings_updatePassphrase]
  | connectPublic request => rw [warnings_asked]
  | connectPrivate request => rw [warnings_asked]

theorem warnings_openLink (a : Act) (operation : Operation) :
    (a.openLink call operation).session.warnings =
      a.session.warnings.await call (.handshake operation) := by
  rw [openLink, warnings_pause]
  simp [Pause.awaited, Warnings.await, Session.warnings, post, tell, lower, update]

theorem warnings_disposeHost (a : Act) : a.disposeHost.session.warnings = a.session.warnings := by
  obtain ⟨ready, notices, hdispose⟩ := a.disposeHost_eq
  rw [hdispose]
  rfl

theorem warnings_giveUp (a : Act) (operation : Operation) :
    (a.giveUp call operation).session.warnings = a.session.warnings.giveUp operation := by
  cases operation with
  | createPublic request advertised => exact a.warnings_disposeHost
  | createPrivate request advertised => exact a.warnings_disposeHost
  | _ => rfl

theorem warnings_awaitAddress (a : Act) (outcome : Outcome) :
    (a.awaitAddress call outcome).session.warnings = a.session.warnings := by
  rw [awaitAddress]
  split
  · exact warnings_pause_of_deaf call a _ (by simp [Pause.awaited])
  · rfl

theorem warnings_goOn (a : Act) (index : Option Nat) (pause : Pause) :
    (a.goOn call index pause).session.warnings =
      a.session.warnings.goOn a.session call index pause := by
  cases pause with
  | handshake operation =>
    rw [goOn, Warnings.goOn]
    split
    · rw [warnings_operate, warnings_updatePassphrase]
    · rw [warnings_giveUp]
      cases operation with
      | _ => rfl
  | scanReplies => rfl
  | confirmation =>
    have hallowed : (if a.session.p2p then a else a.disposeHost).session.warnings =
        a.session.warnings := by
      split
      · rfl
      · exact a.warnings_disposeHost
    rw [goOn]
    split
    · exact (warnings_awaitAddress call _ _).trans hallowed
    · exact (warnings_disposeHost _).trans hallowed
  | joinReply =>
    rw [goOn]
    dsimp only
    split
    · rfl
    · split
      · rfl
      · exact warnings_awaitAddress call _ _
  | rejectReply => rfl
  | address guest arrived outcome => rfl
  | cleanup ended => rfl

theorem filterMap_listener?_filter (waiting : List Waiting) :
    (waiting.filter (·.id ≠ call)).filterMap Waiting.listener? =
      (waiting.filterMap Waiting.listener?).filter (·.1 ≠ call) := by
  induction waiting with
  | nil => rfl
  | cons w waiting ih =>
    by_cases hawaited : .relayError ∈ w.pause.awaited
    · have hlistener : w.listener? = some (w.id, w.pause) := if_pos hawaited
      by_cases hcall : w.id = call
      · simpa [hcall, hlistener] using ih
      · simpa [hcall, hlistener] using ih
    · have hlistener : w.listener? = none := if_neg hawaited
      by_cases hcall : w.id = call
      · simpa [hcall, hlistener] using ih
      · simpa [hcall, hlistener] using ih

theorem warnings_endPause (a : Act) :
    (a.endPause call).session.warnings = a.session.warnings.dismiss call := by
  simp only [Session.warnings, Warnings.dismiss, endPause, update]
  rw [filterMap_listener?_filter]

theorem warnings_endWait (a : Act) {latches : Latches Signal}
    (hraised : latches.isRaised .relayError = a.session.latches.isRaised .relayError) :
    (a.endWait call latches).session.warnings = a.session.warnings.dismiss call := by
  rw [← warnings_endPause]
  simp only [Session.warnings, endWait, update, hraised]
  rfl

theorem clears_resume (a : Act) :
    Warnings.Clears call a.session.warnings (a.resume call).session.warnings := by
  have hlooks := looks call a
  generalize a.session.verdict? call = verdict at hlooks
  generalize a.resume call = b at hlooks ⊢
  cases hlooks with
  | still => exact .refl call _
  | ends overlay hfind hpause =>
    show Warnings.Clears call _ (a.endPause call).session.warnings
    rw [warnings_endPause]
    exact Warnings.clears_dismiss call _
  | goesOn index hfind hawaited hraised =>
    rw [warnings_goOn, warnings_endWait call a hraised]
    exact (Warnings.clears_dismiss call _).trans (Warnings.clears_goOn _ _ call index _)

theorem warnings_leave (a : Act) : a.leave.session.warnings = a.session.warnings := by
  cases hnetwork : a.session.inNetwork with
  | false => rw [leave, if_neg (by rw [hnetwork]; exact Bool.false_ne_true)]
  | true =>
    obtain ⟨ready, notices, hleave⟩ := leave_eq hnetwork
    rw [hleave]
    simp [Session.warnings]

theorem warnings_beginOperation (a : Act) (operation : Operation) :
    (a.beginOperation call operation).session.warnings =
      a.session.warnings.begin a.session call (.operate operation) := by
  have hsame : (a.prepare operation).session.warnings = a.session.warnings := by
    obtain ⟨networks, idle, ready, hosted, hprepare⟩ := a.session_prepare operation
    rw [hprepare]
    rfl
  rw [beginOperation_eq, Warnings.begin, ← hsame]
  split
  · exact warnings_operate call _ operation
  · split
    · exact warnings_giveUp call ((a.prepare operation).update fun s =>
        { s with receiver := .absent }) operation
    · exact warnings_openLink call _ operation

theorem warnings_begin (a : Act) (begun : Call) :
    (a.begin call begun).session.warnings = a.session.warnings.begin a.session call begun := by
  have hsend (packet : Packet) :
      (a.postInNetwork call packet).session.warnings = a.session.warnings := by
    rw [postInNetwork]
    split
    · rfl
    · rfl
  have hstop (a : Act) : (a.beginStop call).session.warnings = a.session.warnings := by
    obtain ⟨receiver, ready, hstopped⟩ := a.stopReceiver_eq (.call call)
    have hsame : (a.stopReceiver (.call call)).2.session.warnings = a.session.warnings := by
      rw [hstopped]
      rfl
    rw [beginStop]
    split
    · rename_i b hstop
      rw [hstop] at hsame
      exact (warnings_pause_of_deaf call b none (by simp [Pause.awaited])).trans hsame
    · rename_i b hstop
      rw [hstop] at hsame
      exact hsame
  cases begun with
  | operate operation => exact warnings_beginOperation call a operation
  | reject removal =>
    rw [begin, Warnings.begin]
    split
    · rw [warnings_pause]
      simp [Pause.awaited, Warnings.await, Session.warnings, post, tell, lower, update]
    · rfl
  | setAdvertiseData data => exact hsend _
  | setJoinPolicy policy => exact hsend _
  | leaveNetwork => exact (warnings_leave _).trans (hsend _)
  | stop => exact hstop a
  | leaveAndStop => exact hstop (a.update fun s => { s with idle := s.idle.disable })
  | sendTraffic traffic =>
    rw [begin, sendTraffic]
    dsimp only
    split
    · rfl
    · split
      · rfl
      · rfl

theorem clears_begin (a : Act) (begun : Call) :
    Warnings.Clears call a.session.warnings (a.begin call begun).session.warnings := by
  rw [warnings_begin]
  exact Warnings.clears_begin _ _ call begun

end Act

end LocalPlay.Session
