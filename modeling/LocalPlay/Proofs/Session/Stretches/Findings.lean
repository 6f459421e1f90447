import LocalPlay.Proofs.Session.Stretches.Turns

/-!
# What the relay's answers leave behind

The relay answers a scan with a packet for every network and one for the end, and a removal with one
packet. They come at any time, to whichever call, and what a session has of them afterwards are its
`findings`: the networks, and whether the end and the acknowledgement are there. `Records` says of
two sessions, one later than the other, that the findings have grown by what was told of since, and
`Notes` says it of two acts. Calls forget findings: some as they begin, which is `forget`, and a
scan the end of earlier ones as it asks.

The acts are gone through in the order of their definitions.
-/

namespace LocalPlay.Session

open Net Wire Overlay Timing

/-! ### Findings -/

/-- The network that a scan is told of. -/
def Notice.found? : Notice → Option NetworkInfo
  | handled _ (.scanReply info) => some info
  | _ => none

/-- The notice is not of an answer. -/
def Notice.isMoot : Notice → Bool
  | handled _ (.scanReply _) | handled _ .scanEnd | handled _ .rejectReply => false
  | _ => true

/-- What the relay has answered so far: networks, the end of a scan, the acknowledgement of a
removal. -/
def findings (s : Session) : List NetworkInfo × Bool × Bool :=
  (s.networks, s.latches.isRaised .scanEnd, s.latches.isRaised .rejectReply)

/-- What a call forgets of the findings as it begins. -/
def Call.forget (s : Session) : Call → Session
  | operate (.scan _) => { s with networks := [] }
  | reject _ => if s.inNetwork then { s with latches := s.latches.lower .rejectReply } else s
  | _ => s

/-- From `s` to `t` the findings grow by what is told, but a scan that asks forgets the end of
another. -/
structure Records (s t : Session) (more : List Notice) : Prop where
  networks : t.networks = s.networks ++ more.filterMap Notice.found?
  ended : t.latches.isRaised .scanEnd = true →
    s.latches.isRaised .scanEnd = true ∨ ∃ sender, .handled sender .scanEnd ∈ more
  kept : (s.latches.isRaised .scanEnd = true ∨ ∃ sender, .handled sender .scanEnd ∈ more) →
    t.latches.isRaised .scanEnd = true ∨
      ∃ caller filter refusal, .posted caller .relay (.scan filter) refusal ∈ more
  acknowledged : t.latches.isRaised .rejectReply = true ↔
    s.latches.isRaised .rejectReply = true ∨ ∃ sender, .handled sender .rejectReply ∈ more

variable {s t u : Session} {more rest : List Notice}

namespace Records

theorem trans (h : Records s t more) (hmore : Records t u rest) : Records s u (more ++ rest) where
  networks := by
    rw [hmore.networks, h.networks, List.filterMap_append, List.append_assoc]
  ended hraised := by
    simp only [List.mem_append, exists_or]
    rcases hmore.ended hraised with hbefore | hlater
    · exact (h.ended hbefore).imp_right .inl
    · exact .inr (.inr hlater)
  kept hended := by
    simp only [List.mem_append, exists_or] at hended ⊢
    have hfirst (hended : s.latches.isRaised .scanEnd = true ∨
        ∃ sender, .handled sender .scanEnd ∈ more) : u.latches.isRaised .scanEnd = true ∨
        (∃ caller filter refusal, .posted caller .relay (.scan filter) refusal ∈ more) ∨
        ∃ caller filter refusal, .posted caller .relay (.scan filter) refusal ∈ rest := by
      rcases h.kept hended with hraised | hasked
      · exact (hmore.kept (.inl hraised)).imp_right .inr
      · exact .inr (.inl hasked)
    rcases hended with hraised | hearlier | hlater
    · exact hfirst (.inl hraised)
    · exact hfirst (.inr hearlier)
    · exact (hmore.kept (.inr hlater)).imp_right .inr
  acknowledged := by
    simp only [List.mem_append, exists_or]
    rw [hmore.acknowledged, h.acknowledged, or_assoc]

/-- What is told is no answer, and the findings stay as they are. -/
theorem of_moot (hmore : ∀ notice ∈ more, notice.isMoot = true)
    (hfindings : t.findings = s.findings) : Records s t more := by
  obtain ⟨hnetworks, hended, hacknowledged⟩ := by
    simpa only [findings, Prod.mk.injEq] using hfindings
  have hnone {notice : Notice} (hanswer : notice.isMoot = false) : notice ∉ more := fun hmem =>
    Bool.false_ne_true (hanswer.symm.trans (hmore notice hmem))
  exact {
    networks := by
      rw [hnetworks, List.filterMap_eq_nil_iff.mpr, List.append_nil]
      intro notice hmem
      rw [Notice.found?.eq_def]
      split
      · exact absurd hmem (hnone rfl)
      · rfl
    ended := fun hraised => .inl (hended ▸ hraised)
    kept := by
      rintro (hbefore | ⟨sender, hmem⟩)
      · exact .inl (hended.trans hbefore)
      · exact absurd hmem (hnone rfl)
    acknowledged := by
      rw [hacknowledged]
      refine ⟨.inl, fun h => h.resolve_right ?_⟩
      rintro ⟨sender, hmem⟩
      exact hnone rfl hmem }

end Records

namespace Act

/-- Between the acts the findings grow by what is told. -/
def Notes (a b : Act) : Prop :=
  ∃ more, b.told = a.told ++ more ∧ Records a.session b.session more

namespace Notes

variable {a b c : Act}

theorem refl (a : Act) : Notes a a :=
  ⟨[], (List.append_nil _).symm, .of_moot (List.forall_mem_nil _) rfl⟩

theorem trans (h : Notes a b) (hmore : Notes b c) : Notes a c := by
  obtain ⟨more, hbefore, hnotes⟩ := h
  obtain ⟨rest, hafter, hrest⟩ := hmore
  exact ⟨more ++ rest, by rw [hafter, hbefore, List.append_assoc], hnotes.trans hrest⟩

theorem step (h : Notes a b) {more : List Notice} (htold : c.told = b.told ++ more)
    (hnotes : Records b.session c.session more) : Notes a c :=
  h.trans ⟨more, htold, hnotes⟩

theorem same (h : Notes a b) {more : List Notice} (htold : c.told = b.told ++ more)
    (hmore : ∀ notice ∈ more, notice.isMoot = true)
    (hfindings : c.session.findings = b.session.findings) : Notes a c :=
  h.step htold (.of_moot hmore hfindings)

theorem update (h : Notes a b) {f : Session → Session}
    (hfindings : (f b.session).findings = b.session.findings) : Notes a (b.update f) :=
  h.same (List.append_nil _).symm (List.forall_mem_nil _) hfindings

theorem tell (h : Notes a b) {notice : Notice} (hnotice : notice.isMoot = true) :
    Notes a (b.tell notice) :=
  h.same rfl (List.forall_mem_singleton.mpr hnotice) rfl

theorem foldl {α : Type} {f : Act → α → Act} (xs : List α) (h : Notes a b)
    (hf : ∀ b, ∀ x ∈ xs, Notes a b → Notes a (f b x)) : Notes a (xs.foldl f b) := by
  apply List.foldlRecOn xs f h
  intro b hb x hx
  exact hf b x hx hb

theorem wake (h : Notes a b) (activity : Activity) : Notes a (b.wake activity) := by
  obtain ⟨ready, hwake⟩ := b.wake_eq activity
  rw [hwake]
  exact h.same (List.append_nil _).symm (List.forall_mem_nil _) rfl

theorem post (h : Notes a b) (caller : Option Nat) (target : Target) (packet : Packet) :
    Notes a (b.post caller target packet) :=
  h.tell rfl

theorem raise (h : Notes a b) {signal : Signal}
    (hsignal : signal ≠ .scanEnd ∧ signal ≠ .rejectReply) : Notes a (b.raise signal) := by
  refine foldl _ (h.update ?_) fun _ _ _ h => h.wake _
  simp [findings, hsignal.1.symm, hsignal.2.symm]

theorem lower (h : Notes a b) {signal : Signal}
    (hsignal : signal ≠ .scanEnd ∧ signal ≠ .rejectReply) : Notes a (b.lower signal) := by
  refine h.update ?_
  simp [findings, hsignal.1.symm, hsignal.2.symm]

theorem finish (h : Notes a b) (call : Nat) (outcome : Outcome) : Notes a (b.finish call outcome) :=
  h.tell rfl

theorem pause (h : Notes a b) (call : Nat) (timeout : Option Nat) (pause : Pause) :
    Notes a (b.pause call timeout pause) :=
  h.update rfl

theorem takeError (h : Notes a b) : Notes a b.takeError.2 :=
  h.update rfl

/-! ### The hosted proxy and networks -/

theorem moot_of_mem_map_host (notices : List Overlay.Notice) :
    ∀ notice ∈ notices.map Notice.host, notice.isMoot = true := by
  intro _ hmem
  obtain ⟨notice, _, rfl⟩ := List.mem_map.mp hmem
  rfl

theorem disposeHost (h : Notes a b) : Notes a b.disposeHost := by
  obtain ⟨ready, notices, hdispose⟩ := b.disposeHost_eq
  rw [hdispose]
  exact h.same rfl (moot_of_mem_map_host notices) rfl

theorem adopt (h : Notes a b) (scene : Scene) : Notes a (b.adopt scene) := by
  obtain ⟨ready, hadopt⟩ := b.adopt_eq scene
  rw [hadopt]
  exact h.same rfl (moot_of_mem_map_host scene.notices) rfl

theorem atHost (h : Notes a b) (f : Host → Scene) : Notes a (b.atHost f) := by
  rw [Act.atHost]
  split
  · exact h.adopt _
  · exact h

theorem hostProxy (h : Notes a b) : Notes a b.hostProxy := by
  rw [Act.hostProxy]
  split
  · exact h.disposeHost.update rfl
  · exact h

theorem leave (h : Notes a b) : Notes a b.leave := by
  rw [Act.leave]
  split
  · exact ((h.update rfl).disposeHost.lower (by simp)).tell rfl
  · exact h

theorem close (h : Notes a b) (receiver : Receiver) : Notes a (b.close receiver) := by
  rw [close_eq]
  exact (h.leave.update rfl).tell rfl

theorem updatePassphrase (h : Notes a b) (call : Nat) : Notes a (b.updatePassphrase call) := by
  rw [Act.updatePassphrase]
  split
  · exact h
  · exact (h.update rfl).post _ _ _

theorem stopReceiver (h : Notes a b) (stopper : Stopper) : Notes a (b.stopReceiver stopper).2 := by
  obtain ⟨receiver, ready, hstop⟩ := b.stopReceiver_eq stopper
  rw [hstop]
  exact h.same (List.append_nil _).symm (List.forall_mem_nil _) rfl

/-! ### Calls -/

theorem openLink (h : Notes a b) (call : Nat) (operation : Operation) :
    Notes a (b.openLink call operation) := by
  rw [Act.openLink]
  exact (((((h.update rfl).tell rfl).lower (by simp)).lower (by simp)).post _ _ _).pause _ _ _

theorem finishScan (h : Notes a b) (call : Nat) (ended : Bool) :
    Notes a (b.finishScan call ended) :=
  h.takeError.finish _ _

/-- A scan forgets the end of earlier ones as it asks. -/
theorem asked (h : Notes a b) (call : Nat) (operation : Operation) :
    Notes a (b.asked call operation) := by
  obtain ⟨deadline, refusal, hasked⟩ := b.asked_eq call operation
  rw [hasked]
  cases operation with
  | scan filter =>
    exact h.step rfl {
      networks := (List.append_nil _).symm
      ended := fun hraised => by simp [Operation.lowered] at hraised
      kept := fun _ => .inr ⟨some call, filter, refusal, List.mem_cons_self⟩
      acknowledged := by simp [Operation.lowered] }
  | _ =>
    refine h.same rfl (List.forall_mem_singleton.mpr rfl) ?_
    simp [findings, Operation.lowered]

theorem operate (h : Notes a b) (call : Nat) (operation : Operation) :
    Notes a (b.operate call operation) := by
  rw [operate_eq]
  cases operation with
  | scan filter => exact (h.updatePassphrase call).asked call _
  | createPublic request advertised => exact (h.asked call _).updatePassphrase call
  | createPrivate request advertised => exact (h.updatePassphrase call).asked call _
  | connectPublic request => exact h.asked call _
  | connectPrivate request => exact h.asked call _

theorem giveUp (h : Notes a b) (call : Nat) (operation : Operation) :
    Notes a (b.giveUp call operation) := by
  cases operation with
  | scan filter => exact h.finishScan call false
  | createPublic request advertised => exact h.disposeHost.finish _ _
  | createPrivate request advertised => exact h.disposeHost.finish _ _
  | connectPublic request => exact h.finish _ _
  | connectPrivate request => exact h.finish _ _

theorem refreshIdle (h : Notes a b) : Notes a b.refreshIdle := by
  rw [Act.refreshIdle]
  dsimp only
  split
  · exact (h.update rfl).wake _
  · exact h.update rfl

/-- What a scan has forgotten is as if it had never been there. -/
theorem prepare (a : Act) (operation : Operation) :
    Notes (a.update (Call.forget · (.operate operation))) (a.prepare operation) := by
  cases operation with
  | scan filter =>
    rw [Act.prepare]
    split
    · exact .refl _
    · exact (refl (a.update fun s => { s with networks := [] })).refreshIdle
  | createPublic request advertised => exact ((refl a).update rfl).hostProxy
  | createPrivate request advertised => exact ((refl a).update rfl).hostProxy
  | connectPublic request => exact (refl a).update rfl
  | connectPrivate request => exact (refl a).update rfl

theorem beginOperation (a : Act) (call : Nat) (operation : Operation) :
    Notes (a.update (Call.forget · (.operate operation))) (a.beginOperation call operation) := by
  have hprepared := prepare a operation
  rw [Act.beginOperation]
  split
  · exact hprepared.operate call operation
  · split
    · exact (hprepared.update rfl).giveUp call operation
    · exact hprepared.openLink call operation

theorem postInNetwork (h : Notes a b) (call : Nat) (packet : Packet) :
    Notes a (b.postInNetwork call packet) := by
  rw [Act.postInNetwork]
  split
  · exact h.post _ _ _
  · exact h

theorem beginStop (h : Notes a b) (call : Nat) : Notes a (b.beginStop call) := by
  have hstopped := h.stopReceiver (.call call)
  rw [Act.beginStop]
  split
  · rename_i hstop
    rw [hstop] at hstopped
    exact hstopped.pause _ _ _
  · rename_i hstop
    rw [hstop] at hstopped
    exact hstopped.finish _ _

theorem sendTraffic (h : Notes a b) (call : Nat) (traffic : Traffic) :
    Notes a (b.sendTraffic call traffic) := by
  rw [Act.sendTraffic]
  split
  · exact h.finish _ _
  · split
    · exact (h.post _ _ _).finish _ _
    · exact (h.post _ _ _).finish _ _

theorem begin (a : Act) (id : Nat) (call : Call) :
    Notes (a.update (Call.forget · call)) (a.begin id call) := by
  cases call with
  | operate operation => exact beginOperation a id operation
  | reject removal =>
    rw [Act.begin]
    cases hnetwork : a.session.inNetwork with
    | true =>
      have hforget : a.update (Call.forget · (.reject removal)) = a.lower .rejectReply := by
        rw [Act.update, Call.forget, if_pos hnetwork]
        rfl
      rw [hforget, if_pos rfl]
      exact (((refl _).lower (by simp)).post _ _ _).pause _ _ _
    | false =>
      have hforget : a.update (Call.forget · (.reject removal)) = a := by
        rw [Act.update, Call.forget, if_neg (by simp [hnetwork])]
      rw [hforget, if_neg Bool.false_ne_true]
      exact (refl a).finish _ _
  | setAdvertiseData data => exact ((refl a).postInNetwork _ _).finish _ _
  | setJoinPolicy policy => exact ((refl a).postInNetwork _ _).finish _ _
  | leaveNetwork => exact ((refl a).postInNetwork _ _).leave.finish _ _
  | stop => exact (refl a).beginStop id
  | leaveAndStop => exact ((refl a).update rfl).beginStop id
  | sendTraffic traffic => exact (refl a).sendTraffic id traffic

theorem awaitAddress (h : Notes a b) (call : Nat) (outcome : Outcome) :
    Notes a (b.awaitAddress call outcome) := by
  rw [Act.awaitAddress]
  split
  · exact h.pause _ _ _
  · exact h.finish _ _

theorem goOn (h : Notes a b) (call : Nat) (index : Option Nat) (pause : Pause) :
    Notes a (b.goOn call index pause) := by
  cases pause with
  | handshake operation =>
    rw [Act.goOn]
    split
    · exact (h.updatePassphrase call).operate call operation
    · exact h.takeError.giveUp call operation
  | scanReplies => exact h.finishScan call _
  | confirmation =>
    have hallowed : Notes a (if b.session.p2p then b else b.disposeHost) := by
      split
      · exact h
      · exact h.disposeHost
    rw [Act.goOn]
    split
    · exact hallowed.awaitAddress call _
    · exact hallowed.disposeHost.finish _ _
  | joinReply =>
    rw [Act.goOn]
    dsimp only
    split
    · exact h.takeError.finish _ _
    · split
      · exact h.takeError.finish _ _
      · exact h.takeError.awaitAddress call _
  | rejectReply => exact h.takeError.finish _ _
  | address guest arrived outcome => exact h
  | cleanup ended => exact h

theorem resume (h : Notes a b) (call : Nat) : Notes a (b.resume call) := by
  have hended : Notes a (b.endPause call) := h.update rfl
  rw [Act.resume]
  split
  · exact h
  · rename_i w _
    dsimp only
    split
    · split
      · exact hended.finish _ _
      · exact h
    · split
      · exact (hended.update rfl).finish _ _
      · exact h
    · generalize hglance : b.session.latches.glance Signal.once w.pause.awaited _ = result
      obtain ⟨glance, latches⟩ := result
      cases glance with
      | fired index =>
        obtain ⟨name, -, -, -, hlatches⟩ := Latches.glance_fired hglance
        -- The one latch that lets through only one call is neither of the two.
        have hleft : Notes a ((b.endPause call).update fun s => { s with latches }) := by
          refine hended.update ?_
          rw [hlatches]
          cases name with
          | joined => simp [findings, Signal.once, endPause, Act.update]
          | _ => rfl
        exact hleft.goOn call _ _
      | timedOut =>
        obtain ⟨-, -, rfl⟩ := Latches.glance_timedOut hglance
        exact (hended.update rfl).goOn call _ _
      | waiting => exact h

/-! ### Packets and the end of the receive loop -/

theorem joinProxy (h : Notes a b) (offer : ProxyOffer) : Notes a (b.joinProxy offer) := by
  rw [Act.joinProxy]
  split
  · exact h
  · dsimp only
    split
    · exact ((h.update rfl).post _ _ _).leave
    · exact (h.update rfl).post _ _ _

theorem acceptOverlay (h : Notes a b) (config : OverlayConfig) :
    Notes a (b.acceptOverlay config) := by
  rw [Act.acceptOverlay]
  split
  · exact (foldl _ (h.update rfl) fun _ _ _ h => h.wake _).post _ _ _
  · exact ((h.update rfl).post _ _ _).tell rfl

/-- An answer is noted. -/
theorem note (h : Notes a b) {sender : Endpoint} {packet : Packet} {signal : Signal}
    (hpacket : packet = .scanEnd ∧ signal = .scanEnd ∨
      packet = .rejectReply ∧ signal = .rejectReply) :
    Notes a ((b.tell (.handled sender packet)).raise signal) := by
  refine foldl _ (h.step (c := (b.tell (.handled sender packet)).update fun s =>
    { s with latches := s.latches.raise signal }) rfl ?_) fun _ _ _ h => h.wake _
  rcases hpacket with ⟨rfl, rfl⟩ | ⟨rfl, rfl⟩
  · exact {
      networks := (List.append_nil _).symm
      ended := fun _ => .inr ⟨sender, List.mem_cons_self⟩
      kept := fun _ => .inl (by simp [Act.update])
      acknowledged := by simp [Act.update, Act.tell] }
  · exact {
      networks := (List.append_nil _).symm
      ended := fun hraised => .inl (by simpa [Act.update, Act.tell] using hraised)
      kept := fun hended => .inl (by simpa [Act.update, Act.tell] using hended)
      acknowledged := by simp [Act.update, Act.tell] }

theorem handle (h : Notes a b) (sender : Endpoint) (packet : Packet) :
    Notes a (b.handle sender packet) := by
  have htold (hmoot : (Notice.handled sender packet).isMoot = true) :
      Notes a (b.tell (.handled sender packet)) := h.tell hmoot
  cases packet with
  | hello identity => exact ((htold rfl).update rfl).raise (by simp)
  | connected info => exact (((htold rfl).update rfl).raise (by simp)).tell rfl
  | syncNetwork info => exact ((htold rfl).post _ _ _).tell rfl
  | reject removal => exact (htold rfl).update rfl
  | rejectReply => exact h.note (.inr ⟨rfl, rfl⟩)
  | disconnect ip => exact (htold rfl).leave
  | scanReply info =>
    exact h.step rfl {
      networks := rfl
      ended := .inl
      kept := fun hended => .inl (hended.resolve_right (by simp))
      acknowledged := (or_iff_left (by simp)).symm }
  | scanEnd => exact h.note (.inl ⟨rfl, rfl⟩)
  | proxyOffer offer =>
    show Notes a (if _ then _ else _)
    split
    · exact (htold rfl).joinProxy offer
    · exact (htold rfl).atHost _
  | proxyToken token => exact (htold rfl).atHost _
  | proxyState presence => exact (htold rfl).atHost _
  | overlayConfig config => exact (htold rfl).acceptOverlay config
  | ping ping =>
    show Notes a (if ping.requester = 0 then _ else _)
    split
    · exact (htold rfl).post none .relay (.ping ping)
    · exact htold rfl
  | networkError error =>
    have herror := (htold rfl).update (f := fun s => { s with lastError := error }) rfl
    cases error with
    | portUnreachable => exact (htold rfl).update rfl
    | _ => exact herror.raise (by simp)
  | proxyConnect addressing => exact (htold rfl).tell rfl
  | proxyConnectReply addressing => exact (htold rfl).tell rfl
  | proxyData header data => exact (htold rfl).tell rfl
  | proxyDisconnect closure => exact (htold rfl).tell rfl
  | _ => exact htold rfl

theorem receive (h : Notes a b) (sender : Endpoint) (bytes : Bytes) :
    Notes a (b.receive sender bytes) := by
  rcases b.receive_cases sender bytes with ⟨host, hhost, hreceive⟩ | hreceive
  · rw [hreceive]
    exact h.adopt _
  · rw [hreceive]
    exact foldl _ (h.update rfl) fun _ packet _ h => h.handle sender packet

theorem receiveFailed (h : Notes a b) (error : IoError) : Notes a (b.receiveFailed error) := by
  rw [Act.receiveFailed]
  split
  · exact h.close _
  · exact h.raise (by simp)
  · exact h.raise (by simp)

theorem cleanup (h : Notes a b) : Notes a b.cleanup := by
  rw [Act.cleanup]
  split
  · dsimp only
    split
    · exact h.close .absent
    · exact ((h.close .absent).update rfl).wake _
  · exact h

theorem perform (h : Notes a b) (activity : Activity) : Notes a (b.perform activity) := by
  cases activity with
  | resume call => exact h.resume call
  | cleanup => exact h.cleanup
  | idleStop => exact h.stopReceiver .idleCountdown
  | host job => exact h.atHost _

theorem start {next : Session} (hfindings : next.findings = s.findings) :
    Notes { session := s } { session := next } :=
  (refl { session := s }).same rfl (List.forall_mem_nil _) hfindings

end Notes

end Act

/-! ### Moves -/

/-- What a move forgets of the findings before all else. -/
def forget (s : Session) : Move → Session
  | .event (.call call) => call.forget s
  | _ => s

/-- Only scans and removals forget, the ones the networks, the others the acknowledgement. -/
theorem forget_cases (s : Session) (m : Move) :
    s.forget m = s ∨
      (∃ filter, m = .event (.call (.operate (.scan filter))) ∧
        s.forget m = { s with networks := [] }) ∨
      ∃ removal, m = .event (.call (.reject removal)) ∧
        s.forget m = { s with latches := s.latches.lower .rejectReply } := by
  cases m with
  | event event =>
    cases event with
    | call call =>
      cases call with
      | operate operation =>
        cases operation with
        | scan filter => exact .inr (.inl ⟨filter, rfl, rfl⟩)
        | _ => exact .inl rfl
      | reject removal =>
        rw [forget, Call.forget]
        split
        · exact .inr (.inr ⟨removal, rfl, rfl⟩)
        · exact .inl rfl
      | _ => exact .inl rfl
    | _ => exact .inl rfl
  | _ => exact .inl rfl

theorem Call.findings_forget (call : Call) (s : Session) (calls : Nat) :
    (call.forget { s with calls }).findings = (call.forget s).findings := by
  cases call with
  | operate operation =>
    cases operation with
    | _ => rfl
  | reject removal =>
    rw [forget, forget]
    split
    · rfl
    · rfl
  | _ => rfl

/-- In a move the findings that are not forgotten grow by what is told. -/
theorem notes_move (s : Session) (m : Move) :
    Records (s.forget m) (s.move m).session (s.move m).told := by
  suffices hnotes : Act.Notes { session := s.forget m } (s.move m) by
    obtain ⟨more, hmore, hnotes⟩ := hnotes
    rw [hmore]
    exact hnotes
  have hstart := Act.Notes.refl { session := s }
  cases m with
  | reach time =>
    obtain ⟨ready, hreach, -⟩ := s.exists_reach_eq time
    rw [move, hreach]
    exact .start rfl
  | turn activity =>
    rw [move]
    split
    · have hturn : Act.Notes { session := s }
          { session := { s with ready := s.ready.erase activity } } := .start rfl
      exact hturn.perform activity
    · exact hstart
  | event event =>
    cases event with
    | call call =>
      have hcalled : Act.Notes { session := call.forget s } (({ session :=
          { s with calls := s.calls + 1 } } : Act).update (Call.forget · call)) :=
        .start (call.findings_forget s _)
      exact hcalled.trans (Act.Notes.begin _ s.calls call)
    | datagram sender bytes =>
      rw [move, happen]
      split
      · exact hstart.receive sender bytes
      · exact hstart
    | receiveError error =>
      rw [move, happen]
      split
      · exact hstart.receiveFailed error
      · exact hstart
    | setPassphrase text =>
      rw [move, happen]
      split
      · exact .start rfl
      · exact hstart
    | setGameVersion version => exact .start rfl
    | setOpenFault error => exact .start rfl
    | setFault target error => exact .start rfl

end LocalPlay.Session
