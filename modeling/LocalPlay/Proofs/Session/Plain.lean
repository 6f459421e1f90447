import LocalPlay.Proofs.Overlay.Move
import LocalPlay.Session.Run

/-!
# What a session does apart from its packets and its proxy

Most of what a session does neither handles a packet nor has the hosted proxy move: calls begin and
go on, latches are raised, networks are left. `Plain` says of two acts, one later than the other,
that only such things lie between them. They leave the hosted proxy as it is or put an empty one or
none in its place, and the streams as they are or drop them all. What remains of a session is in
`handle` and `atHost`.

The lemmas go through the acts in the order of their definitions. Each extends a plain stretch by
one act, so that the lemma for an act is written like the act.
-/

namespace LocalPlay.Session

open Net Wire Overlay Timing

/-- Says of no packet that it was handled, and of the hosted proxy only what it lost. -/
def Notice.isPlain : Notice → Bool
  | handled _ _ => false
  | host (.tokenDropped _) | host (.left _ _) => true
  | host _ => false
  | _ => true

theorem isPlain_shutdown (host : Host) :
    ∀ notice ∈ host.shutdown.notices.map Notice.host, notice.isPlain = true := by
  intro _ hmap
  obtain ⟨notice, hmem, rfl⟩ := List.mem_map.mp hmap
  rw [Host.shutdown, Scene.closeAll_eq] at hmem
  rcases List.mem_append.mp hmem with hmem | hmem
  all_goals
    obtain ⟨_, _, rfl⟩ := List.mem_map.mp hmem
    rfl

namespace Act

structure Plain (a b : Act) : Prop where
  hosted : b.session.hosted = a.session.hosted ∨
    ∀ host, b.session.hosted = some host → host.registry = {}
  streams : b.session.streams = a.session.streams ∨ b.session.streams = []
  told : ∃ more, b.told = a.told ++ more ∧ ∀ notice ∈ more, notice.isPlain = true

namespace Plain

variable {a b c : Act}

theorem refl (a : Act) : Plain a a :=
  ⟨.inl rfl, .inl rfl, [], (List.append_nil _).symm, fun _ => nofun⟩

theorem trans (hfirst : Plain a b) (hsecond : Plain b c) : Plain a c := by
  refine ⟨?_, ?_, ?_⟩
  · rcases hsecond.hosted with hsame | hempty
    · rw [hsame]
      exact hfirst.hosted
    · exact .inr hempty
  · rcases hsecond.streams with hsame | hnone
    · rw [hsame]
      exact hfirst.streams
    · exact .inr hnone
  · obtain ⟨before, hbefore, hplain⟩ := hfirst.told
    obtain ⟨more, hmore, hplain'⟩ := hsecond.told
    refine ⟨before ++ more, by rw [hmore, hbefore, List.append_assoc], fun notice hmem => ?_⟩
    rcases List.mem_append.mp hmem with hmem | hmem
    · exact hplain notice hmem
    · exact hplain' notice hmem

theorem updateOr (h : Plain a b) {f : Session → Session}
    (hhosted : (f b.session).hosted = b.session.hosted ∨
      ∀ host, (f b.session).hosted = some host → host.registry = {})
    (hstreams : (f b.session).streams = b.session.streams ∨ (f b.session).streams = []) :
    Plain a (b.update f) :=
  h.trans ⟨hhosted, hstreams, [], (List.append_nil _).symm, fun _ => nofun⟩

theorem update (h : Plain a b) {f : Session → Session}
    (hhosted : (f b.session).hosted = b.session.hosted)
    (hstreams : (f b.session).streams = b.session.streams) : Plain a (b.update f) :=
  h.updateOr (.inl hhosted) (.inl hstreams)

theorem tellAll (h : Plain a b) {notices : List Notice}
    (hnotices : ∀ notice ∈ notices, notice.isPlain = true) :
    Plain a { b with told := b.told ++ notices } :=
  h.trans ⟨.inl rfl, .inl rfl, notices, rfl, hnotices⟩

theorem tell (h : Plain a b) {notice : Notice} (hnotice : notice.isPlain = true) :
    Plain a (b.tell notice) :=
  h.tellAll fun _ hmem => List.mem_singleton.mp hmem ▸ hnotice

theorem foldl {α : Type} {f : Act → α → Act} (hf : ∀ b x, Plain a b → Plain a (f b x))
    (xs : List α) (h : Plain a b) : Plain a (xs.foldl f b) := by
  apply List.foldlRecOn xs f h
  intro b hb x _
  exact hf b x hb

theorem wake (h : Plain a b) (activity : Activity) : Plain a (b.wake activity) := by
  rw [Act.wake]
  refine h.update ?_ ?_
  all_goals
    split
    · rfl
    · rfl

theorem post (h : Plain a b) (caller : Option Nat) (target : Target) (packet : Packet) :
    Plain a (b.post caller target packet) :=
  h.tell rfl

theorem raise (h : Plain a b) (signal : Signal) : Plain a (b.raise signal) :=
  foldl (fun _ _ h => h.wake _) _ (h.update rfl rfl)

theorem lower (h : Plain a b) (signal : Signal) : Plain a (b.lower signal) :=
  h.update rfl rfl

theorem finish (h : Plain a b) (call : Nat) (outcome : Outcome) : Plain a (b.finish call outcome) :=
  h.tell rfl

theorem pause (h : Plain a b) (call : Nat) (timeout : Option Nat) (pause : Pause) :
    Plain a (b.pause call timeout pause) :=
  h.update rfl rfl

theorem takeError (h : Plain a b) : Plain a b.takeError.2 := by
  rw [Act.takeError]
  dsimp only
  exact h.update rfl rfl

/-! ### The hosted proxy and networks -/

theorem disposeHost (h : Plain a b) : Plain a b.disposeHost := by
  rw [Act.disposeHost]
  cases b.session.hosted with
  | none => exact h
  | some host =>
    dsimp only
    refine (h.updateOr (.inr ?_) (.inl rfl)).tellAll (isPlain_shutdown host)
    exact fun _ => nofun

theorem hostProxy (h : Plain a b) : Plain a b.hostProxy := by
  rw [Act.hostProxy]
  split
  · refine h.disposeHost.updateOr (.inr ?_) (.inl rfl)
    rintro _ ⟨⟩
    rfl
  · exact h

theorem leave (h : Plain a b) : Plain a b.leave := by
  rw [Act.leave]
  split
  · exact ((h.update rfl rfl).disposeHost.lower _).tell rfl
  · exact h

theorem close (h : Plain a b) (receiver : Receiver) : Plain a (b.close receiver) := by
  rw [Act.close]
  exact (h.updateOr (.inl rfl) (.inr rfl)).leave.tell rfl

theorem updatePassphrase (h : Plain a b) (call : Nat) : Plain a (b.updatePassphrase call) := by
  rw [Act.updatePassphrase]
  split
  · exact h
  · exact (h.update rfl rfl).post _ _ _

theorem stopReceiver (h : Plain a b) (stopper : Stopper) : Plain a (b.stopReceiver stopper).2 := by
  rw [Act.stopReceiver]
  cases b.session.receiver with
  | listening => exact (h.update rfl rfl).wake _
  | ended =>
    dsimp only
    exact h.update rfl rfl
  | _ => exact h

/-! ### Calls -/

theorem openLink (h : Plain a b) (call : Nat) (operation : Operation) :
    Plain a (b.openLink call operation) := by
  rw [Act.openLink]
  exact (((((h.updateOr (.inl rfl) (.inr rfl)).tell rfl).lower _).lower _).post _ _ _).pause _ _ _

theorem finishScan (h : Plain a b) (call : Nat) (ended : Bool) :
    Plain a (b.finishScan call ended) := by
  rw [Act.finishScan]
  exact h.takeError.finish _ _

theorem requestJoin (h : Plain a b) (call : Nat) (request : Packet) :
    Plain a (b.requestJoin call request) := by
  rw [Act.requestJoin]
  exact ((h.lower _).post _ _ _).pause _ _ _

theorem operate (h : Plain a b) (call : Nat) (operation : Operation) :
    Plain a (b.operate call operation) := by
  cases operation with
  | scan filter =>
    rw [Act.operate]
    exact ((((h.updatePassphrase _).lower _).lower _).post _ _ _).pause _ _ _
  | createPublic request advertised =>
    rw [Act.operate]
    exact ((h.post _ _ _).updatePassphrase _).pause _ _ _
  | createPrivate request advertised =>
    rw [Act.operate]
    exact ((h.updatePassphrase _).post _ _ _).pause _ _ _
  | connectPublic request => exact h.requestJoin _ _
  | connectPrivate request => exact h.requestJoin _ _

theorem giveUp (h : Plain a b) (call : Nat) (operation : Operation) :
    Plain a (b.giveUp call operation) := by
  cases operation with
  | scan filter => exact h.finishScan _ _
  | createPublic request advertised => exact h.disposeHost.finish _ _
  | createPrivate request advertised => exact h.disposeHost.finish _ _
  | connectPublic request => exact h.finish _ _
  | connectPrivate request => exact h.finish _ _

theorem refreshIdle (h : Plain a b) : Plain a b.refreshIdle := by
  rw [Act.refreshIdle]
  dsimp only
  split
  · exact (h.update rfl rfl).wake _
  · exact h.update rfl rfl

theorem prepare (h : Plain a b) (operation : Operation) : Plain a (b.prepare operation) := by
  cases operation with
  | scan filter =>
    rw [Act.prepare]
    split
    · exact h.update rfl rfl
    · exact (h.update rfl rfl).refreshIdle
  | createPublic request advertised => exact (h.update rfl rfl).hostProxy
  | createPrivate request advertised => exact (h.update rfl rfl).hostProxy
  | connectPublic request =>
    rw [Act.prepare]
    exact h.update rfl rfl
  | connectPrivate request =>
    rw [Act.prepare]
    exact h.update rfl rfl

theorem beginOperation (h : Plain a b) (call : Nat) (operation : Operation) :
    Plain a (b.beginOperation call operation) := by
  have hprepared := h.prepare operation
  rw [Act.beginOperation]
  split
  · exact hprepared.operate _ _
  · split
    · exact (hprepared.update rfl rfl).giveUp _ _
    · exact hprepared.openLink _ _

theorem postInNetwork (h : Plain a b) (call : Nat) (packet : Packet) :
    Plain a (b.postInNetwork call packet) := by
  rw [Act.postInNetwork]
  split
  · exact h.post _ _ _
  · exact h

theorem beginStop (h : Plain a b) (call : Nat) : Plain a (b.beginStop call) := by
  have hstopped := h.stopReceiver (.call call)
  rw [Act.beginStop]
  split
  · rename_i hstop
    rw [hstop] at hstopped
    exact hstopped.pause _ _ _
  · rename_i hstop
    rw [hstop] at hstopped
    exact hstopped.finish _ _

theorem sendTraffic (h : Plain a b) (call : Nat) (traffic : Traffic) :
    Plain a (b.sendTraffic call traffic) := by
  rw [Act.sendTraffic]
  dsimp only
  split
  · exact h.finish _ _
  · split
    · exact (h.post _ _ _).finish _ _
    · exact (h.post _ _ _).finish _ _

theorem begin (h : Plain a b) (id : Nat) (call : Call) : Plain a (b.begin id call) := by
  cases call with
  | operate operation => exact h.beginOperation _ _
  | reject removal =>
    rw [Act.begin]
    split
    · exact (((h.lower _).lower _).post _ _ _).pause _ _ _
    · exact h.finish _ _
  | setAdvertiseData data => exact (h.postInNetwork _ _).finish _ _
  | setJoinPolicy policy => exact (h.postInNetwork _ _).finish _ _
  | leaveNetwork => exact (h.postInNetwork _ _).leave.finish _ _
  | stop => exact h.beginStop _
  | leaveAndStop => exact (h.update rfl rfl).beginStop _
  | sendTraffic traffic => exact h.sendTraffic _ _

theorem awaitAddress (h : Plain a b) (call : Nat) (outcome : Outcome) :
    Plain a (b.awaitAddress call outcome) := by
  rw [Act.awaitAddress]
  split
  · exact h.pause _ _ _
  · exact h.finish _ _

theorem goOn (h : Plain a b) (call : Nat) (index : Option Nat) (pause : Pause) :
    Plain a (b.goOn call index pause) := by
  cases pause with
  | handshake operation =>
    rw [Act.goOn]
    split
    · exact (h.updatePassphrase _).operate _ _
    · exact h.takeError.giveUp _ _
  | scanReplies => exact h.finishScan _ _
  | confirmation =>
    have hallowed : Plain a (if b.session.p2p then b else b.disposeHost) := by
      split
      · exact h
      · exact h.disposeHost
    rw [Act.goOn]
    split
    · exact hallowed.awaitAddress _ _
    · exact hallowed.disposeHost.finish _ _
  | joinReply =>
    rw [Act.goOn]
    dsimp only
    split
    · exact h.takeError.finish _ _
    · split
      · exact h.takeError.finish _ _
      · exact h.takeError.awaitAddress _ _
  | rejectReply => exact h.takeError.finish _ _
  | address => exact h
  | cleanup => exact h

theorem endPause (h : Plain a b) (call : Nat) : Plain a (b.endPause call) :=
  h.update rfl rfl

theorem resume (h : Plain a b) (call : Nat) : Plain a (b.resume call) := by
  rw [Act.resume]
  cases b.session.waiting.find? (·.id == call) with
  | none => exact h
  | some waiting =>
    dsimp only
    split
    · split
      · exact (h.endPause _).finish _ _
      · exact h
    · split
      · exact ((h.endPause _).update rfl rfl).finish _ _
      · exact h
    · split
      · exact ((h.endPause _).update rfl rfl).goOn _ _ _
      · exact ((h.endPause _).update rfl rfl).goOn _ _ _
      · exact h

/-! ### Packets and the end of the receive loop -/

theorem joinProxy (h : Plain a b) (offer : ProxyOffer) : Plain a (b.joinProxy offer) := by
  rw [Act.joinProxy]
  split
  · exact h
  · dsimp only
    split
    · exact ((h.update rfl rfl).post _ _ _).leave
    · exact (h.update rfl rfl).post _ _ _

theorem acceptOverlay (h : Plain a b) (config : OverlayConfig) :
    Plain a (b.acceptOverlay config) := by
  rw [Act.acceptOverlay]
  split
  · dsimp only
    exact (foldl (fun _ _ h => h.wake _) _ (h.update rfl rfl)).post _ _ _
  · exact ((h.update rfl rfl).post _ _ _).tell rfl

theorem receiveFailed (h : Plain a b) (error : IoError) : Plain a (b.receiveFailed error) := by
  rw [Act.receiveFailed]
  cases error.severity with
  | unrecoverable => exact h.close _
  | recoverable => exact h.raise _
  | datagramLost => exact h.raise _

theorem cleanup (h : Plain a b) : Plain a b.cleanup := by
  rw [Act.cleanup]
  split
  · dsimp only
    split
    · exact h.close _
    · exact ((h.close _).update rfl rfl).wake _
  · exact h

end Plain

end Act

/-! ### What the hosted proxy has a part in -/

/-- What a packet asks of the hosted proxy. Only for an offer it matters who sent it. -/
def hostMove? (s : Session) (sender : Endpoint) : Packet → Option Host.Move
  | .proxyOffer offer => if sender = s.relay then none else some (.apply s.clock sender offer)
  | .proxyToken token => some (.addToken token)
  | .proxyState presence => some (.applyPresence presence)
  | _ => none

theorem eq_proxyToken_of_hostMove? {s : Session} {sender : Endpoint} {packet : Packet}
    {move : Host.Move} (hmove : s.hostMove? sender packet = some move) {token : ProxyToken}
    (htoken : move.token? = some token) : packet = .proxyToken token := by
  cases packet with
  | proxyToken own =>
    obtain rfl := Option.some.inj hmove
    rw [Option.some.inj htoken]
  | proxyOffer offer =>
    rw [hostMove?] at hmove
    split at hmove
    · exact nomatch hmove
    · obtain rfl := Option.some.inj hmove
      exact nomatch htoken
  | proxyState presence =>
    obtain rfl := Option.some.inj hmove
    exact nomatch htoken
  | _ => exact nomatch hmove

/-- No packet lets anyone in: applicants look at the tokens in jobs. -/
theorem withoutGrant_of_hostMove? {s : Session} {sender : Endpoint} {packet : Packet}
    {move : Host.Move} (hmove : s.hostMove? sender packet = some move) (host : Host) :
    host.WithoutGrant move (host.move move) := by
  rcases host.move_cases move with hquiet | ⟨_, _, _, _, rfl, _⟩
  · exact hquiet
  · cases packet with
    | proxyOffer offer =>
      rw [hostMove?] at hmove
      split at hmove
      · exact nomatch hmove
      · exact nomatch hmove
    | _ => exact nomatch hmove

namespace Act

theorem handle_of_hostMove? {a : Act} {sender : Endpoint} {packet : Packet} {move : Host.Move}
    (hmove : a.session.hostMove? sender packet = some move) :
    a.handle sender packet = (a.tell (.handled sender packet)).atHost (·.move move) := by
  cases packet with
  | proxyToken token =>
    obtain rfl := Option.some.inj hmove
    rfl
  | proxyOffer offer =>
    rw [hostMove?] at hmove
    split at hmove
    · exact nomatch hmove
    · rename_i hstranger
      obtain rfl := Option.some.inj hmove
      exact if_neg hstranger
  | proxyState presence =>
    obtain rfl := Option.some.inj hmove
    rfl
  | _ => exact nomatch hmove

theorem plain_handle {a : Act} {sender : Endpoint} {packet : Packet}
    (hmove : a.session.hostMove? sender packet = none) :
    Plain (a.tell (.handled sender packet)) (a.handle sender packet) := by
  have htold := Plain.refl (a.tell (.handled sender packet))
  cases packet with
  | proxyToken token => exact nomatch hmove
  | proxyState presence => exact nomatch hmove
  | proxyOffer offer =>
    rw [hostMove?] at hmove
    split at hmove
    · rename_i hrelay
      have hjoin : a.handle sender (.proxyOffer offer) =
          (a.tell (.handled sender (.proxyOffer offer))).joinProxy offer := if_pos hrelay
      rw [hjoin]
      exact htold.joinProxy offer
    · exact nomatch hmove
  | hello identity => exact (htold.update rfl rfl).raise _
  | connected info => exact ((htold.update rfl rfl).raise _).tell rfl
  | syncNetwork info => exact (htold.post _ _ _).tell rfl
  | reject removal =>
    show Plain _ (update _ fun s => { s with leaveReason := removal.reason })
    exact htold.update rfl rfl
  | rejectReply => exact htold.raise _
  | disconnect ip => exact htold.leave
  | scanReply info =>
    show Plain _ (update _ fun s => { s with networks := s.networks ++ [info] })
    exact htold.update rfl rfl
  | scanEnd => exact htold.raise _
  | overlayConfig config => exact htold.acceptOverlay config
  | ping ping =>
    show Plain _ (if ping.requester = 0 then post _ none .relay (.ping ping) else _)
    split
    · exact htold.post _ _ _
    · exact htold
  | networkError error =>
    cases error with
    | portUnreachable =>
      show Plain _ (update _ fun s => { s with p2p := false })
      exact htold.update rfl rfl
    | _ => exact (htold.update rfl rfl).raise _
  | proxyConnect addressing => exact htold.tell rfl
  | proxyConnectReply addressing => exact htold.tell rfl
  | proxyData header data => exact htold.tell rfl
  | proxyDisconnect closure => exact htold.tell rfl
  | _ => exact htold

theorem atHost_of_none {a : Act} (hhost : a.session.hosted = none) (f : Host → Scene) :
    a.atHost f = a := by
  rw [atHost, hhost]

theorem atHost_of_some {a : Act} {host : Host} (hhost : a.session.hosted = some host)
    (f : Host → Scene) : a.atHost f = a.adopt (f host) := by
  rw [atHost, hhost]

theorem foldl_wake_eq {α : Type} (activity : α → Activity) (xs : List α) (a : Act) :
    ∃ ready, xs.foldl (fun a x => a.wake (activity x)) a =
      { a with session := { a.session with ready } } := by
  induction xs generalizing a with
  | nil => exact ⟨a.session.ready, rfl⟩
  | cons x xs ih =>
    obtain ⟨ready, hwake⟩ : ∃ ready, a.wake (activity x) =
        { a with session := { a.session with ready } } := by
      rw [wake, update]
      split
      · exact ⟨a.session.ready, rfl⟩
      · exact ⟨_, rfl⟩
    rw [List.foldl_cons, hwake]
    exact ih _

/-- Only the proxy and what is ready are changed by taking over a scene. -/
theorem adopt_eq (a : Act) (scene : Scene) :
    ∃ ready, a.adopt scene =
      { session := { a.session with hosted := some scene.host, ready }
        told := a.told ++ scene.notices.map .host } :=
  foldl_wake_eq .host scene.jobs _

/-- A datagram is queued by the hosted proxy, if its sender is seated there, or completes packets. -/
theorem receive_cases (a : Act) (sender : Endpoint) (datagram : Bytes) :
    (∃ host, a.session.hosted = some host ∧ a.receive sender datagram =
      a.adopt (host.move (.receive sender (datagram.take receiveLimit)))) ∨
    a.receive sender datagram =
      (reassemble a.session.streams sender (datagram.take receiveLimit)).1.foldl
        (fun a packet => a.handle sender packet) (a.update fun s =>
          { s with streams :=
              (reassemble a.session.streams sender (datagram.take receiveLimit)).2 }) := by
  rw [receive]
  cases a.session.hosted with
  | none => exact .inr rfl
  | some host =>
    dsimp only
    split
    · rename_i scene hscene
      split at hscene
      · obtain rfl := Option.some.inj hscene
        exact .inl ⟨host, rfl, rfl⟩
      · exact nomatch hscene
    · exact .inr rfl

end Act

end LocalPlay.Session
