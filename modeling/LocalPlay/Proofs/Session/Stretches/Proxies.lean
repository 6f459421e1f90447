import LocalPlay.Proofs.Session.Hosting
import LocalPlay.Proofs.Session.Stretches.Readings

/-!
# What calls do with the hosted proxy

A call that is to create a network hosts a proxy, if that is permitted, before it asks, and on its
way it may forget it again: when it gets no link, when its handshake comes to nothing, and when the
confirmation does not come or comes after proxies were forbidden. `Call.hosted` and `Pause.hosted`
say which proxy there is after a stretch of a call. Apart from these calls only those that leave a
network forget it.
-/

namespace LocalPlay.Session

open Net Wire Overlay Timing

/-- The proxy after an operation has been prepared. -/
def Operation.hosted (s : Session) (operation : Operation) : Option Host :=
  if operation.hosts then
    if s.p2p then some { authWait := s.timeouts.authWait } else s.hosted
  else
    s.hosted

/-- The proxy after a call has begun. -/
def Call.hosted (s : Session) : Call → Option Host
  | operate operation =>
    if s.phase = .idle ∧ s.openFault.isSome ∧ operation.hosts then none else operation.hosted s
  | leaveNetwork => if s.inNetwork then none else s.hosted
  | _ => s.hosted

/-- The proxy after a call has gone on from this pause. -/
def Pause.hosted (s : Session) (index : Option Nat) : Pause → Option Host
  | handshake operation =>
    if operation.hosts ∧ ¬ (s.phase ≠ .idle ∧ index = some 0) then none else s.hosted
  | confirmation => if s.p2p ∧ index.isSome then s.hosted else none
  | _ => s.hosted

theorem Call.hosted_of_forbidden {s : Session} (hforbidden : s.p2p = false) (begun : Call) :
    begun.hosted s = s.hosted ∨ begun.hosted s = none := by
  cases begun with
  | operate operation =>
    rw [hosted, Operation.hosted]
    split
    · exact .inr rfl
    · simp [hforbidden]
  | leaveNetwork =>
    rw [hosted]
    split
    · exact .inr rfl
    · exact .inl rfl
  | _ => exact .inl rfl

theorem Pause.hosted_cases (s : Session) (index : Option Nat) (pause : Pause) :
    pause.hosted s index = s.hosted ∨ pause.hosted s index = none := by
  cases pause with
  | handshake operation =>
    rw [hosted]
    split
    · exact .inr rfl
    · exact .inl rfl
  | confirmation =>
    rw [hosted]
    split
    · exact .inl rfl
    · exact .inr rfl
  | _ => exact .inl rfl

namespace Act

variable (call : Nat)

theorem hosted_operate (a : Act) (operation : Operation) :
    (a.operate call operation).session.hosted = a.session.hosted := by
  have hasked (a : Act) : (a.asked call operation).session.hosted = a.session.hosted := by
    obtain ⟨deadline, refusal, hasked⟩ := a.asked_eq call operation
    rw [hasked]
  have hupdate (a : Act) : (a.updatePassphrase call).session.hosted = a.session.hosted := by
    rw [session_updatePassphrase]
  rw [operate_eq]
  cases operation with
  | scan filter => rw [hasked, hupdate]
  | createPublic request advertised => rw [hupdate, hasked]
  | createPrivate request advertised => rw [hasked, hupdate]
  | connectPublic request => exact hasked a
  | connectPrivate request => exact hasked a

theorem hosted_giveUp_eq (a : Act) (operation : Operation) :
    (a.giveUp call operation).session.hosted =
      if operation.hosts then none else a.session.hosted := by
  cases operation with
  | createPublic request advertised => exact a.hosted_disposeHost
  | createPrivate request advertised => exact a.hosted_disposeHost
  | _ => rfl

theorem hosted_hostProxy (a : Act) : a.hostProxy.session.hosted =
    if a.session.p2p then some { authWait := a.session.timeouts.authWait }
    else a.session.hosted := by
  rw [hostProxy]
  split
  · obtain ⟨ready, notices, hdispose⟩ := a.disposeHost_eq
    rw [hdispose]
    rfl
  · rfl

theorem hosted_prepare (a : Act) (operation : Operation) :
    (a.prepare operation).session.hosted = operation.hosted a.session := by
  cases operation with
  | scan filter =>
    rw [prepare]
    split
    · rfl
    · obtain ⟨idle, ready, hrefresh⟩ :=
        session_refreshIdle (a.update fun s => { s with networks := [] })
      rw [hrefresh]
      rfl
  | createPublic request advertised => exact hosted_hostProxy _
  | createPrivate request advertised => exact hosted_hostProxy _
  | _ => rfl

theorem hosted_beginOperation (a : Act) (operation : Operation) :
    (a.beginOperation call operation).session.hosted =
      (Call.operate operation).hosted a.session := by
  rw [beginOperation_eq, Call.hosted, ← hosted_prepare]
  split
  · rename_i hlinked
    rw [hosted_operate, if_neg fun h => hlinked h.1]
  · rename_i hidle
    split
    · rename_i hfault
      rw [hosted_giveUp_eq]
      simp [Decidable.of_not_not hidle, hfault, update]
    · rename_i hfault
      obtain ⟨deadline, refusal, hopen⟩ := (a.prepare operation).openLink_eq call operation
      rw [hopen, if_neg fun h => hfault h.2.1]

theorem hosted_leave (a : Act) :
    a.leave.session.hosted = if a.session.inNetwork then none else a.session.hosted := by
  rw [leave]
  split
  · exact hosted_disposeHost _
  · rfl

theorem hosted_begin (a : Act) (begun : Call) :
    (a.begin call begun).session.hosted = begun.hosted a.session := by
  have hsend (packet : Packet) :
      (a.postInNetwork call packet).session.hosted = a.session.hosted ∧
      (a.postInNetwork call packet).session.inNetwork = a.session.inNetwork := by
    rw [postInNetwork]
    split
    · exact ⟨rfl, rfl⟩
    · exact ⟨rfl, rfl⟩
  have hstop (a : Act) : (a.beginStop call).session.hosted = a.session.hosted := by
    obtain ⟨receiver, ready, hstopped⟩ := a.stopReceiver_eq (.call call)
    have hsame : (a.stopReceiver (.call call)).2.session.hosted = a.session.hosted := by
      rw [hstopped]
    rw [beginStop]
    split
    · rename_i b hstop
      rw [hstop] at hsame
      exact hsame
    · rename_i b hstop
      rw [hstop] at hsame
      exact hsame
  cases begun with
  | operate operation => exact hosted_beginOperation call a operation
  | reject removal =>
    rw [begin]
    split
    · rfl
    · rfl
  | setAdvertiseData data => exact (hsend _).1
  | setJoinPolicy policy => exact (hsend _).1
  | leaveNetwork =>
    refine (hosted_leave _).trans ?_
    rw [(hsend _).1, (hsend _).2, Call.hosted]
  | stop => exact hstop a
  | leaveAndStop => exact hstop (a.update fun s => { s with idle := s.idle.disable })
  | sendTraffic traffic =>
    rw [begin, sendTraffic]
    dsimp only
    split
    · rfl
    · split
      · rfl
      · rfl

theorem hosted_awaitAddress (a : Act) (outcome : Outcome) :
    (a.awaitAddress call outcome).session.hosted = a.session.hosted := by
  rw [awaitAddress]
  split
  · rfl
  · rfl

theorem hosted_goOn (a : Act) (index : Option Nat) (pause : Pause) :
    (a.goOn call index pause).session.hosted = pause.hosted a.session index := by
  cases pause with
  | handshake operation =>
    rw [goOn, Pause.hosted]
    split
    · rename_i hgreeted
      rw [hosted_operate, session_updatePassphrase, if_neg fun h => h.2 hgreeted]
    · rename_i hungreeted
      rw [hosted_giveUp_eq]
      simp [hungreeted, takeError, update]
  | confirmation =>
    have hallowed : (if a.session.p2p then a else a.disposeHost).session.hosted =
        if a.session.p2p then a.session.hosted else none := by
      split
      · rfl
      · exact a.hosted_disposeHost
    rw [goOn, Pause.hosted]
    cases index with
    | some place => simpa using (hosted_awaitAddress call _ _).trans hallowed
    | none => exact (hosted_disposeHost _).trans (if_neg (by simp)).symm
  | joinReply =>
    rw [goOn]
    dsimp only
    split
    · rfl
    · split
      · rfl
      · exact hosted_awaitAddress call _ _
  | _ => rfl

/-! ### Who waits then -/

variable {call}

theorem waiting_disposeHost (a : Act) : a.disposeHost.session.waiting = a.session.waiting := by
  obtain ⟨ready, notices, hdispose⟩ := a.disposeHost_eq
  rw [hdispose]

theorem waiting_giveUp (a : Act) (operation : Operation) :
    (a.giveUp call operation).session.waiting = a.session.waiting := by
  cases operation with
  | createPublic request advertised => exact a.waiting_disposeHost
  | createPrivate request advertised => exact a.waiting_disposeHost
  | _ => rfl

theorem mem_waiting_awaitAddress {a : Act} {outcome : Outcome} {v : Waiting}
    (hv : v ∈ (a.awaitAddress call outcome).session.waiting) :
    v ∈ a.session.waiting ∨ v.pause.hosts = false := by
  rw [awaitAddress] at hv
  split at hv
  · refine (List.mem_append.mp hv).imp id fun hv => ?_
    obtain rfl := List.mem_singleton.mp hv
    rfl
  · exact .inl hv

/-- A call that has waited for the confirmation hosts its proxy for itself no longer. -/
theorem mem_waiting_confirmation {a : Act} {index : Option Nat} {v : Waiting}
    (hv : v ∈ (a.goOn call index .confirmation).session.waiting) :
    v ∈ a.session.waiting ∨ v.pause.hosts = false := by
  have hallowed : (if a.session.p2p then a else a.disposeHost).session.waiting =
      a.session.waiting := by
    split
    · rfl
    · exact a.waiting_disposeHost
  rw [goOn] at hv
  split at hv
  · rw [← hallowed]
    exact mem_waiting_awaitAddress hv
  · left
    rw [← hallowed, ← waiting_disposeHost]
    exact hv

/-- A call that forgets its proxy does not wait for its network any more. -/
theorem hosted_resume (a : Act) (call : Nat) :
    (a.resume call).session.hosted = a.session.hosted ∨
      ∃ w, a.session.waiting.find? (·.id == call) = some w ∧ w.pause.hosts = true ∧
        ∀ v ∈ (a.resume call).session.waiting, v.id = call → v.pause.hosts = false := by
  have hlooks := looks call a
  generalize a.session.verdict? call = verdict at hlooks
  generalize a.resume call = b at hlooks ⊢
  cases hlooks with
  | still => exact .inl rfl
  | ends overlay hfind hpause => exact .inl rfl
  | @goesOn w latches index hfind =>
    have hnone : ∀ v ∈ (a.endWait call latches).session.waiting, v.id ≠ call := fun v hv =>
      of_decide_eq_true (List.mem_filter.mp hv).2
    by_cases hhosts : w.pause.hosts = true
    · cases hpause : w.pause with
      | handshake operation =>
        by_cases hgreeted : (a.endWait call latches).session.phase ≠ .idle ∧ index = some 0
        · left
          rw [hosted_goOn]
          exact if_neg fun h => h.2 hgreeted
        · refine .inr ⟨w, hfind, hhosts, fun v hv hid => ?_⟩
          rw [goOn, if_neg hgreeted, waiting_giveUp] at hv
          exact absurd hid (hnone v hv)
      | confirmation =>
        refine .inr ⟨w, hfind, hhosts, fun v hv hid => ?_⟩
        exact (mem_waiting_confirmation hv).resolve_left fun hold => hnone v hold hid
      | _ =>
        rw [hpause] at hhosts
        exact absurd hhosts Bool.false_ne_true
    · left
      rw [hosted_goOn]
      cases hpause : w.pause with
      | handshake operation =>
        rw [hpause] at hhosts
        exact if_neg fun h => hhosts h.1
      | confirmation =>
        rw [hpause] at hhosts
        exact absurd rfl hhosts
      | _ => rfl

/-- An operation waits from its beginning, for the handshake or for what it has asked for, unless
there is no link to be had. -/
theorem waiting_beginOperation (a : Act) (call : Nat) (operation : Operation) :
    (a.session.phase = .idle ∧ a.session.openFault.isSome = true ∧
      (a.beginOperation call operation).session.waiting = a.session.waiting) ∨
    ¬ (a.session.phase = .idle ∧ a.session.openFault.isSome = true) ∧ ∃ deadline pause,
      (a.beginOperation call operation).session.waiting =
        a.session.waiting ++ [⟨call, deadline, pause⟩] ∧
      (pause = .handshake operation ∨ pause = operation.pause) := by
  have hwaiting : (a.prepare operation).session.waiting = a.session.waiting := by
    obtain ⟨networks, idle, ready, hosted, hprepare⟩ := a.session_prepare operation
    rw [hprepare]
  rw [beginOperation_eq]
  split
  · rename_i hlinked
    obtain ⟨b, hrests, hoperate⟩ := (a.prepare operation).exists_operate_eq call operation
    refine .inr ⟨fun h => hlinked h.1, ?_⟩
    have hsame : b.session.waiting = (a.prepare operation).session.waiting :=
      congrArg Affairs.waiting hrests.affairs
    rw [hoperate, ← hwaiting, ← hsame]
    exact ⟨_, _, rfl, .inr rfl⟩
  · rename_i hidle
    split
    · rename_i hfaulty
      refine .inl ⟨Decidable.of_not_not hidle, hfaulty, ?_⟩
      rw [waiting_giveUp]
      exact hwaiting
    · rename_i hsound
      obtain ⟨deadline, refusal, hopen⟩ := (a.prepare operation).openLink_eq call operation
      refine .inr ⟨fun h => hsound h.2, ?_⟩
      rw [hopen, ← hwaiting]
      exact ⟨_, _, rfl, .inl rfl⟩

end Act

end LocalPlay.Session
