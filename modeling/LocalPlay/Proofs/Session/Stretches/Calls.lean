import LocalPlay.Proofs.Session.Stretches.Acts
import LocalPlay.Proofs.Timing.Latch

/-!
# What calls lead to

A call begins, and goes on when a latch it waits for is raised or its time is over. What a call that
goes on has found decides between two ways: a confirmation has let it through, or there is none that
it could take.
-/

namespace LocalPlay.Session

open Net Wire Overlay Timing

variable {origin : Session} {m : Move}

/-! ### What calls wait for -/

theorem Signal.once_of_ne {signal : Signal} (hsignal : signal ≠ .joined) : signal.once = false := by
  cases signal with
  | joined => exact absurd rfl hsignal
  | _ => rfl

namespace Pause

variable {pause : Pause}

theorem joined_mem_awaited_iff : .joined ∈ pause.awaited ↔ pause.confirmed?.isSome := by
  cases pause with
  | _ => simp [awaited, confirmed?]

/-- A confirmation is what a call that can take one looks for first. -/
theorem getElem?_awaited_zero (hawaited : .joined ∈ pause.awaited) :
    pause.awaited[0]? = some .joined := by
  cases pause with
  | confirmation => rfl
  | joinReply => rfl
  | _ => simp [awaited] at hawaited

theorem eq_zero_of_awaited {index : Nat} (hname : pause.awaited[index]? = some .joined) :
    index = 0 := by
  rcases index with _ | _ | index
  · rfl
  · cases pause with
    | _ => simp [awaited] at hname
  · cases pause with
    | _ => simp [awaited] at hname

end Pause

/-! ### Calls that begin -/

namespace Act

theorem session_refreshIdle (a : Act) :
    ∃ idle ready, a.refreshIdle.session = { a.session with idle, ready } := by
  rw [refreshIdle]
  dsimp only
  split
  · obtain ⟨ready, hwake⟩ := (a.update fun s =>
      { s with idle := ((s.idle.refresh s.clock).reach s.clock).2 }).wake_eq .idleStop
    exact ⟨_, ready, congrArg Act.session hwake⟩
  · exact ⟨_, _, rfl⟩

theorem session_hostProxy (a : Act) :
    ∃ ready hosted, a.hostProxy.session = { a.session with ready, hosted } := by
  rw [hostProxy]
  split
  · obtain ⟨ready, notices, hdispose⟩ := a.disposeHost_eq
    rw [hdispose]
    exact ⟨_, _, rfl⟩
  · exact ⟨_, _, rfl⟩

/-- What a call does before it looks at the link leaves all that steps are about as it is. -/
theorem session_prepare (a : Act) (operation : Operation) :
    ∃ networks idle ready hosted, (a.prepare operation).session =
      { a.session with networks, idle, ready, hosted } := by
  cases operation with
  | scan filter =>
    rw [prepare]
    dsimp only
    split
    · exact ⟨_, _, _, _, rfl⟩
    · obtain ⟨idle, ready, heq⟩ :=
        session_refreshIdle (a.update fun s => { s with networks := [] })
      exact ⟨_, _, _, _, heq⟩
  | createPublic request advertised =>
    obtain ⟨ready, hosted, heq⟩ :=
      session_hostProxy (a.update fun s => { s with idle := s.idle.disable })
    exact ⟨_, _, _, _, heq⟩
  | createPrivate request advertised =>
    obtain ⟨ready, hosted, heq⟩ :=
      session_hostProxy (a.update fun s => { s with idle := s.idle.disable })
    exact ⟨_, _, _, _, heq⟩
  | connectPublic request => exact ⟨_, _, _, _, rfl⟩
  | connectPrivate request => exact ⟨_, _, _, _, rfl⟩

/-- What an operation does once it is prepared was decided before. -/
theorem beginOperation_eq (a : Act) (call : Nat) (operation : Operation) :
    a.beginOperation call operation =
      if a.session.phase ≠ .idle then
        (a.prepare operation).operate call operation
      else if a.session.openFault.isSome then
        ((a.prepare operation).update fun s => { s with receiver := .absent }).giveUp call operation
      else
        (a.prepare operation).openLink call operation := by
  have hsame : (a.prepare operation).session.phase = a.session.phase ∧
      (a.prepare operation).session.openFault = a.session.openFault := by
    obtain ⟨networks, idle, ready, hosted, hprepare⟩ := a.session_prepare operation
    rw [hprepare]
    exact ⟨rfl, rfl⟩
  rw [beginOperation, hsame.1, hsame.2]

theorem openLink_eq (a : Act) (call : Nat) (operation : Operation) :
    ∃ deadline refusal, a.openLink call operation =
      { session := { a.session with
          receiver := .listening
          streams := []
          phase := .connecting
          transportOpen := true
          latches := (a.session.latches.lower .handshake).lower .relayError
          waiting := a.session.waiting ++ [⟨call, deadline, .handshake operation⟩]
          ready := .resume call :: a.session.ready }
        told := a.told ++ [.opened] ++
          [.posted (some call) .relay (.hello a.session.identity) refusal] } :=
  ⟨some (a.session.clock + a.session.timeouts.failure), _, rfl⟩

theorem isOperational_toPacket (traffic : Traffic) : isOperational traffic.toPacket = false := by
  cases traffic with
  | _ => rfl

namespace Leads

variable {a b : Act}

theorem finishScan (h : Leads origin m a b) (call : Nat) (ended : Bool) :
    Leads origin m a (b.finishScan call ended) :=
  h.takeError.finish call rfl

theorem giveUp (h : Leads origin m a b) (call : Nat) (operation : Operation) :
    Leads origin m a (b.giveUp call operation) := by
  cases operation with
  | scan filter => exact h.finishScan call false
  | createPublic request advertised => exact h.disposeHost.finish call rfl
  | createPrivate request advertised => exact h.disposeHost.finish call rfl
  | connectPublic request => exact h.finish call rfl
  | connectPrivate request => exact h.finish call rfl

theorem refreshIdle (h : Leads origin m a b) : Leads origin m a b.refreshIdle := by
  have hidle := h.update (f := fun s =>
    { s with idle := ((s.idle.refresh s.clock).reach s.clock).2 }) (.aside ..)
  rw [Act.refreshIdle]
  dsimp only
  split
  · exact hidle.wake _
  · exact hidle

theorem prepare (h : Leads origin m a b) {operation : Operation}
    (hmove : m = .event (.call (.operate operation))) : Leads origin m a (b.prepare operation) := by
  have hidle := h.update (f := fun s => { s with idle := s.idle.disable }) (.aside ..)
  cases operation with
  | scan filter =>
    have hnetworks := h.update (f := fun s => { s with networks := [] }) (.aside ..)
    rw [Act.prepare]
    split
    · exact hnetworks
    · exact hnetworks.refreshIdle
  | createPublic request advertised => exact hidle.hostProxy hmove rfl
  | createPrivate request advertised => exact hidle.hostProxy hmove rfl
  | connectPublic request => exact hidle
  | connectPrivate request => exact hidle

theorem openLink (h : Leads origin m a b) {call : Nat} {operation : Operation}
    (hmove : m = .event (.call (.operate operation))) (hbegun : Begun origin b.session call)
    (hphase : b.session.phase = .idle) : Leads origin m a (b.openLink call operation) := by
  obtain ⟨deadline, refusal, hopen⟩ := b.openLink_eq call operation
  have hopened := h.step (c := { session := _, told := b.told ++ [_] ++ [_] })
    (.openLink call operation deadline refusal hmove hbegun hphase) (List.append_assoc ..)
  have hlowered := hopened.lower (by simp : Signal.relayError ≠ .joined)
  rw [hopen]
  exact hlowered.step (.aside ..) (List.append_nil _).symm

theorem beginOperation (h : Leads origin m a b) {call : Nat} {operation : Operation}
    (hmove : m = .event (.call (.operate operation))) (hbegun : Begun origin b.session call)
    (hsame : b.session.passphrase = origin.passphrase)
    (hsent : b.session.passphraseSent = origin.passphraseSent) :
    Leads origin m a (b.beginOperation call operation) := by
  have hprepared := h.prepare hmove
  obtain ⟨networks, idle, ready, hosted, hprepare⟩ := b.session_prepare operation
  have hbegun' : Begun origin (b.prepare operation).session call := by
    rw [hprepare]
    exact ⟨hbegun.number, hbegun.counted, hbegun.waiting, hbegun.phase, hbegun.raised⟩
  have hsame' : (b.prepare operation).session.passphrase = origin.passphrase := by
    rw [hprepare]
    exact hsame
  have hsent' : (b.prepare operation).session.passphraseSent = origin.passphraseSent := by
    rw [hprepare]
    exact hsent
  rw [Act.beginOperation]
  split
  · rename_i hphase
    exact hprepared.operate hmove hbegun' hphase hsame' hsent'
  · rename_i hphase
    split
    · exact (hprepared.update (.aside ..)).giveUp call operation
    · exact hprepared.openLink hmove hbegun' (Decidable.of_not_not hphase)

theorem pause (h : Leads origin m a b) {call : Nat} {pause : Pause} (timeout : Option Nat)
    (hmove : ∃ call, m = .event (.call call)) (hbegun : Begun origin b.session call)
    (hpause : pause.joins = false) (hawaited : .joined ∉ pause.awaited)
    (hhandshake : ∀ operation, pause ≠ .handshake operation) :
    Leads origin m a (b.pause call timeout pause) :=
  (h.step (c := { session := _, told := b.told })
    (.wait call (timeout.map (b.session.clock + ·)) pause hmove hbegun hpause hawaited hhandshake)
    (List.append_nil _).symm).step (.aside ..) (List.append_nil _).symm

theorem postInNetwork (h : Leads origin m a b) (call : Nat) {packet : Packet}
    (hpacket : isOperational packet = false) : Leads origin m a (b.postInNetwork call packet) := by
  rw [Act.postInNetwork]
  split
  · exact h.post _ _ hpacket
  · exact h

theorem beginStop (h : Leads origin m a b) {call : Nat} (hmove : ∃ call, m = .event (.call call))
    (hbegun : Begun origin b.session call) : Leads origin m a (b.beginStop call) := by
  have hstopped := h.stopReceiver (.call call)
  have hframe : Begun origin (b.stopReceiver (.call call)).2.session call := by
    obtain ⟨receiver, ready, hstop⟩ := b.stopReceiver_eq (.call call)
    rw [hstop]
    exact ⟨hbegun.number, hbegun.counted, hbegun.waiting, hbegun.phase, hbegun.raised⟩
  rw [Act.beginStop]
  split
  · rename_i hstop
    rw [hstop] at hstopped hframe
    exact hstopped.pause _ hmove hframe rfl (by simp [Pause.awaited]) (by simp)
  · rename_i hstop
    rw [hstop] at hstopped
    exact hstopped.finish call rfl

theorem sendTraffic (h : Leads origin m a b) (call : Nat) (traffic : Traffic) :
    Leads origin m a (b.sendTraffic call traffic) := by
  have hpacket := isOperational_toPacket traffic
  rw [Act.sendTraffic]
  split
  · exact h.finish call rfl
  · split
    · refine (h.post _ _ hpacket).finish call ?_
      cases b.session.link _ traffic.toPacket with
      | _ => rfl
    · refine (h.post _ _ hpacket).finish call ?_
      cases b.session.link _ traffic.toPacket with
      | _ => rfl

theorem begin (h : Leads origin m a b) {id : Nat} {call : Call} (hmove : m = .event (.call call))
    (hbegun : Begun origin b.session id) (hsame : b.session.passphrase = origin.passphrase)
    (hsent : b.session.passphraseSent = origin.passphraseSent) :
    Leads origin m a (b.begin id call) := by
  cases call with
  | operate operation => exact h.beginOperation hmove hbegun hsame hsent
  | reject removal =>
    rw [Act.begin]
    split
    · have hlowered := (h.lower (by simp : Signal.rejectReply ≠ .joined)).lower
        (by simp : Signal.relayError ≠ .joined)
      have hraised : ((b.session.latches.lower .rejectReply).lower .relayError).isRaised .joined =
          origin.latches.isRaised .joined := by
        simp [hbegun.raised]
      refine (hlowered.post (some id) .relay rfl).pause _ ⟨_, hmove⟩ ?_ rfl ?_ (by simp)
      · exact ⟨hbegun.number, hbegun.counted, hbegun.waiting, hbegun.phase, hraised⟩
      · simp [Pause.awaited]
    · exact h.finish id rfl
  | setAdvertiseData data => exact (h.postInNetwork id rfl).finish id rfl
  | setJoinPolicy policy => exact (h.postInNetwork id rfl).finish id rfl
  | leaveNetwork => exact ((h.postInNetwork id rfl).leave (by simp [hmove])).finish id rfl
  | stop => exact h.beginStop ⟨_, hmove⟩ hbegun
  | leaveAndStop =>
    have hidle := h.update (f := fun s => { s with idle := s.idle.disable }) (.aside ..)
    exact hidle.beginStop ⟨_, hmove⟩
      ⟨hbegun.number, hbegun.counted, hbegun.waiting, hbegun.phase, hbegun.raised⟩
  | sendTraffic traffic => exact h.sendTraffic id traffic

end Leads

/-! ### Calls that go on -/

/-- A call that goes on was let through by a confirmation, or has found none that it could take. -/
theorem glance_fired_cases {pause : Pause} {latches next : Latches Signal} {timeOver : Bool}
    {index : Nat}
    (hglance : latches.glance Signal.once pause.awaited timeOver = (.fired index, next)) :
    index < pause.awaited.length ∧
    (index = 0 ∧ pause.confirmed?.isSome ∧ latches.isRaised .joined = true ∧
        next = latches.lower .joined ∨
      (.joined ∈ pause.awaited → index ≠ 0 ∧ latches.isRaised .joined = false) ∧
        next = latches ∧
        ∀ operation, pause = .handshake operation → index = 0 →
          latches.isRaised .handshake = true) := by
  obtain ⟨name, hname, hraised, hbefore, hnext⟩ := Latches.glance_fired hglance
  refine ⟨(List.getElem?_eq_some_iff.mp hname).1, ?_⟩
  by_cases hjoined : name = .joined
  · left
    rw [hjoined] at hname hraised hnext
    exact ⟨Pause.eq_zero_of_awaited hname,
      Pause.joined_mem_awaited_iff.mp (List.mem_of_getElem? hname), hraised, hnext⟩
  · right
    refine ⟨fun hawaited => ?_, ?_, ?_⟩
    · have hfirst := Pause.getElem?_awaited_zero hawaited
      have hlater : index ≠ 0 := by
        rintro rfl
        exact hjoined (Option.some.inj (hname.symm.trans hfirst))
      exact ⟨hlater, hbefore 0 .joined (Nat.pos_of_ne_zero hlater) hfirst⟩
    · rw [hnext, Signal.once_of_ne hjoined]
      rfl
    · rintro operation rfl rfl
      obtain rfl : .handshake = name := Option.some.inj hname
      exact hraised

/-- Where a call that goes on starts from. -/
structure Untouched (origin s : Session) : Prop where
  calls : s.calls = origin.calls
  waiting : s.waiting = origin.waiting
  latches : s.latches = origin.latches
  passphrase : s.passphrase = origin.passphrase

/-- The call waits no longer, and the latches are as it leaves them. -/
def endWait (a : Act) (call : Nat) (latches : Latches Signal) : Act :=
  (a.endPause call).update fun s => { s with latches }

namespace Leads

variable {a b : Act} {w : Waiting}

theorem ended (h : Leads origin m a b) (hmove : m = .turn (.resume w.id))
    (hwaiting : w ∈ b.session.waiting)
    (hdown : .joined ∈ w.pause.awaited → b.session.latches.isRaised .joined = false) :
    Leads origin m a (b.endWait w.id b.session.latches) :=
  h.step (.giveUp w hmove hwaiting hdown) (List.append_nil _).symm

theorem awaitAddress (h : Leads origin m a b) {outcome : Outcome}
    (hmove : m = .turn (.resume w.id)) (hwaiting : w ∈ b.session.waiting)
    (hpause : w.pause.confirmed? = some outcome)
    (hraised : b.session.latches.isRaised .joined = true) :
    Leads origin m a
      ((b.endWait w.id (b.session.latches.lower .joined)).awaitAddress w.id outcome) := by
  rw [Act.awaitAddress]
  split
  · rename_i membership hguest
    have hguest : b.session.membership = some membership := hguest
    exact (h.step (c := { session := _, told := b.told })
      (.confirmGuest w outcome _ _ _ hmove hwaiting hpause hraised (by rw [hguest]; rfl))
        (List.append_nil _).symm).step (.aside ..) (List.append_nil _).symm
  · rename_i hguest
    exact h.step (.confirm w outcome hmove hwaiting hpause hraised hguest) rfl

/-- A call goes on that a confirmation has let through. -/
theorem goOnConfirmed (h : Leads origin m a b) (hmove : m = .turn (.resume w.id))
    (hwaiting : w ∈ b.session.waiting) (hconfirmed : w.pause.confirmed?.isSome)
    (hraised : b.session.latches.isRaised .joined = true) :
    Leads origin m a
      ((b.endWait w.id (b.session.latches.lower .joined)).goOn w.id (some 0) w.pause) := by
  cases hpause : w.pause with
  | confirmation =>
    have houtcome : w.pause.confirmed? = some (.confirmed true) := by rw [hpause]; rfl
    rw [goOn]
    split
    · split
      · exact h.awaitAddress hmove hwaiting houtcome hraised
      · -- The proxy is disposed of first: that and the end of the pause do not see each other.
        obtain ⟨ready, notices, hdispose⟩ :=
          (b.endWait w.id (b.session.latches.lower .joined)).disposeHost_eq
        rw [hdispose]
        exact (h.unhost ready notices).awaitAddress hmove hwaiting houtcome hraised
    · rename_i hnone
      exact absurd rfl hnone
  | joinReply =>
    have houtcome : w.pause.confirmed? = some (.joined .none) := by rw [hpause]; rfl
    have htaken := h.update (f := fun s => { s with lastError := .none }) (.aside ..)
    rw [goOn]
    dsimp only [takeError]
    split
    · rename_i herror
      have hwaste := htaken.step (c := { session := _, told := b.told })
        (.waste w hmove hwaiting) (List.append_nil _).symm
      refine hwaste.finish w.id ?_
      rw [Outcome.isJoined]
      exact decide_eq_false herror
    · split
      · rename_i hfirst
        exact absurd rfl hfirst
      · exact htaken.awaitAddress hmove hwaiting houtcome hraised
  | _ => simp [hpause, Pause.confirmed?] at hconfirmed

/-- A call goes on that no confirmation has let through. -/
theorem goOnPlain (h : Leads origin m a b) {index : Option Nat} (hmove : m = .turn (.resume w.id))
    (hwaiting : w ∈ b.session.waiting)
    (hdown : .joined ∈ w.pause.awaited →
      index ≠ some 0 ∧ b.session.latches.isRaised .joined = false)
    (hhandshake : ∀ operation, w.pause = .handshake operation → index = some 0 →
      b.session.latches.isRaised .handshake = true)
    (hfound : ∀ i, index = some i → i < w.pause.awaited.length)
    (hsame : Untouched origin b.session) :
    Leads origin m a ((b.endWait w.id b.session.latches).goOn w.id index w.pause) := by
  have hended := h.ended hmove hwaiting fun hmem => (hdown hmem).2
  cases hpause : w.pause with
  | handshake operation =>
    rw [goOn]
    split
    · rename_i hgreeted
      have hfilter : (b.endWait w.id b.session.latches).session.waiting =
          origin.waiting.filter (·.id ≠ w.id) := by
        rw [← hsame.waiting]
        rfl
      have hraised : b.session.latches.isRaised .joined = origin.latches.isRaised .joined := by
        rw [hsame.latches]
      exact hended.operateAfter hmove (hsame.waiting ▸ hwaiting) hpause hfilter hsame.calls
        hgreeted.1 (hhandshake operation hpause hgreeted.2) hraised hsame.passphrase
    · exact hended.takeError.giveUp w.id operation
  | scanReplies => exact hended.finishScan w.id _
  | rejectReply => exact hended.takeError.finish w.id rfl
  | confirmation =>
    have hallowed : Leads origin m a (if (b.endWait w.id b.session.latches).session.p2p then
        b.endWait w.id b.session.latches else (b.endWait w.id b.session.latches).disposeHost) := by
      split
      · exact hended
      · exact hended.disposeHost
    rw [goOn]
    split
    · rename_i hfired
      obtain ⟨i, rfl⟩ := Option.isSome_iff_exists.mp hfired
      have hfirst := hfound i rfl
      rw [hpause] at hfirst
      obtain rfl := Nat.lt_one_iff.mp hfirst
      exact absurd rfl (hdown (by simp [hpause, Pause.awaited])).1
    · exact hallowed.disposeHost.finish w.id rfl
  | joinReply =>
    rw [goOn]
    dsimp only
    split
    · rename_i herror
      refine hended.takeError.finish w.id ?_
      rw [Outcome.isJoined]
      exact decide_eq_false herror
    · split
      · exact hended.takeError.finish w.id rfl
      · rename_i hfirst
        exact absurd (Decidable.of_not_not hfirst) (hdown (by simp [hpause, Pause.awaited])).1
  | address guest arrived outcome => exact hended
  | cleanup ended => exact hended

theorem resume (h : Leads origin m a b) {call : Nat} (hmove : m = .turn (.resume call))
    (hsame : Untouched origin b.session) : Leads origin m a (b.resume call) := by
  rw [Act.resume]
  cases hfind : b.session.waiting.find? (·.id == call) with
  | none => exact h
  | some w =>
    have hwaiting := List.mem_of_find?_eq_some hfind
    have hid := List.find?_some hfind
    obtain rfl : w.id = call := beq_iff_eq.mp hid
    dsimp only
    split
    · rename_i hpause
      split
      · exact (h.ended hmove hwaiting (by simp [hpause, Pause.awaited])).finish w.id rfl
      · exact h
    · rename_i guest arrived outcome hpause
      split
      · exact (h.step (c := { session := _, told := b.told ++ [_] })
          (.settle w guest arrived outcome hmove hwaiting hpause (hsame.waiting ▸ hwaiting))
            rfl).step (.aside ..)
            (List.append_nil _).symm
      · exact h
    · generalize hglance : b.session.latches.glance Signal.once w.pause.awaited _ = result
      obtain ⟨glance, next⟩ := result
      cases glance with
      | fired index =>
        obtain ⟨hfound, ⟨rfl, hconfirmed, hraised, rfl⟩ | ⟨hdown, rfl, hgreeted⟩⟩ :=
          glance_fired_cases hglance
        · exact h.goOnConfirmed hmove hwaiting hconfirmed hraised
        · refine h.goOnPlain hmove hwaiting (fun hmem => ?_) (fun operation hpause hindex => ?_)
            (fun i hi => Option.some.inj hi ▸ hfound) hsame
          · exact ⟨fun hindex => (hdown hmem).1 (Option.some.inj hindex), (hdown hmem).2⟩
          · exact hgreeted operation hpause (Option.some.inj hindex)
      | timedOut =>
        obtain ⟨hdown, -, rfl⟩ := Latches.glance_timedOut hglance
        exact h.goOnPlain hmove hwaiting (fun hmem => ⟨by simp, hdown _ hmem⟩) (by simp) (by simp)
          hsame
      | waiting => exact h

end Leads
end Act

end LocalPlay.Session
