import LocalPlay.Proofs.Session.Stretches.Turns

/-!
# What errors of the relay leave behind

The relay reports errors at any time. What a session has of them afterwards are its `warnings`: the
error that is stored, the latch that calls are woken by, whether it may still host proxies, and which
calls wait to hear of an error. Only three things have to do with any of that: errors that are
handled, calls that begin to wait or go on, and receives that fail. Everything else is `Heeds`, so
that the warnings after it are those before it with the errors that were told of since.

`Heeds` also keeps what a session has with its peers: no proxy is hosted afresh while that is
forbidden, and the proxy and the host whose guest the session is are only lost when a network is left.

The acts are gone through in the order of their definitions.
-/

namespace LocalPlay.Session

open Net Wire Overlay Timing

/-! ### Warnings -/

/-- The call with what it waits for, if it is to hear of errors. -/
def Waiting.listener? (w : Waiting) : Option (Nat × Pause) :=
  if .relayError ∈ w.pause.awaited then some (w.id, w.pause) else none

/-- What errors have left in a session, and who waits for the next. -/
structure Warnings where
  error : NetworkError
  raised : Bool
  p2p : Bool
  listeners : List (Nat × Pause)

def warnings (s : Session) : Warnings where
  error := s.lastError
  raised := s.latches.isRaised .relayError
  p2p := s.p2p
  listeners := s.waiting.filterMap Waiting.listener?

namespace Warnings

/-- What is left when this has been told too. -/
def heed (warnings : Warnings) : Notice → Warnings
  | .handled _ (.networkError .portUnreachable) => { warnings with p2p := false }
  | .handled _ (.networkError error) => { warnings with error, raised := true }
  | _ => warnings

/-- A call begins to wait. If it is to hear of errors, it forgets that there was one before. -/
def await (warnings : Warnings) (call : Nat) (pause : Pause) : Warnings :=
  if .relayError ∈ pause.awaited then
    { warnings with raised := false, listeners := warnings.listeners ++ [(call, pause)] }
  else
    warnings

/-- A call waits no longer. -/
def dismiss (warnings : Warnings) (call : Nat) : Warnings :=
  { warnings with listeners := warnings.listeners.filter (·.1 ≠ call) }

/-- The stored error is read. -/
def read (warnings : Warnings) : Warnings :=
  { warnings with error := .none }

end Warnings

/-- The notice is neither of an error nor of the end of a call. -/
def Notice.isMute : Notice → Bool
  | handled _ (.networkError _) | finished _ _ => false
  | _ => true

theorem Warnings.heed_of_mute (warnings : Warnings) {notice : Notice}
    (hnotice : notice.isMute = true) : warnings.heed notice = warnings := by
  cases notice with
  | handled sender packet =>
    cases packet with
    | networkError error => exact absurd hnotice Bool.false_ne_true
    | _ => rfl
  | _ => rfl

theorem Warnings.foldl_heed_of_mute (warnings : Warnings) {notices : List Notice}
    (hnotices : ∀ notice ∈ notices, notice.isMute = true) :
    notices.foldl heed warnings = warnings := by
  induction notices with
  | nil => rfl
  | cons notice notices ih =>
    obtain ⟨hnotice, hrest⟩ := List.forall_mem_cons.mp hnotices
    rw [List.foldl_cons, warnings.heed_of_mute hnotice, ih hrest]

theorem listener?_assigned (w : Waiting) (guest : Nat) (config : OverlayConfig) :
    (w.assigned guest config).listener? = w.listener? := by
  rw [Waiting.assigned]
  split
  · rename_i hpause
    rw [Waiting.listener?, Waiting.listener?, hpause]
    rfl
  · rfl

theorem listener?_released (w : Waiting) (call : Nat) :
    (w.released call).listener? = w.listener? := by
  rw [Waiting.released]
  split
  · rename_i hpause
    split
    · rw [Waiting.listener?, Waiting.listener?, hpause]
      rfl
    · rfl
  · rfl

/-! ### What is kept between two sessions -/

/-- The proxy afterwards is the one before, which may have moved, or there is none. -/
def Inherits (before after : Option Host) : Prop :=
  ∀ host, after = some host → ∃ (earlier : Host) (moves : List Host.Move), before = some earlier ∧
    host = moves.foldl (fun host move => (host.move move).host) earlier

theorem Inherits.refl (hosted : Option Host) : Inherits hosted hosted := by
  intro host hhost
  exact ⟨host, [], hhost, rfl⟩

theorem Inherits.trans {first second third : Option Host} (h : Inherits first second)
    (hmore : Inherits second third) : Inherits first third := by
  intro host hhost
  obtain ⟨between, later, hbetween, rfl⟩ := hmore host hhost
  obtain ⟨earlier, moves, hearlier, rfl⟩ := h between hbetween
  refine ⟨earlier, moves ++ later, hearlier, ?_⟩
  rw [List.foldl_append]

theorem Inherits.none (before : Option Host) : Inherits before none := by
  intro host hhost
  cases hhost

theorem not_lost {α : Type} {before after : Option α} (hsame : after = before)
    (hsome : before.isSome = true) : after ≠ none := by
  rw [hsame]
  exact Option.isSome_iff_ne_none.mp hsome

/-- No call ends from `s` to `t`, no proxy is hosted afresh while that is forbidden, and neither the
proxy nor the host of this guest is lost but with a network. -/
structure Keeps (s t : Session) (more : List Notice) : Prop where
  unfinished : ∀ call outcome, .finished call outcome ∉ more
  forbidden : s.p2p = false → t.p2p = false
  hosted : s.p2p = false → Inherits s.hosted t.hosted
  kept : s.hosted.isSome = true → t.hosted = none → ∃ reason, .changed (.left reason) ∈ more
  guest : s.membership.isSome = true → t.membership = none →
    ∃ reason, .changed (.left reason) ∈ more

/-- Besides, errors are heeded when they are told of. -/
structure Follows (s t : Session) (more : List Notice) : Prop extends Keeps s t more where
  warnings : t.warnings = more.foldl Warnings.heed s.warnings

variable {s t u : Session} {more rest : List Notice}

theorem Keeps.trans (h : Keeps s t more) (hmore : Keeps t u rest) : Keeps s u (more ++ rest) where
  unfinished call outcome hmem := by
    rcases List.mem_append.mp hmem with hmem | hmem
    · exact h.unfinished call outcome hmem
    · exact hmore.unfinished call outcome hmem
  forbidden hp2p := hmore.forbidden (h.forbidden hp2p)
  hosted hp2p := (h.hosted hp2p).trans (hmore.hosted (h.forbidden hp2p))
  kept hsome hnone := by
    cases hbetween : t.hosted with
    | none =>
      obtain ⟨reason, hmem⟩ := h.kept hsome hbetween
      exact ⟨reason, List.mem_append_left _ hmem⟩
    | some host =>
      obtain ⟨reason, hmem⟩ := hmore.kept (by rw [hbetween]; rfl) hnone
      exact ⟨reason, List.mem_append_right _ hmem⟩
  guest hsome hnone := by
    cases hbetween : t.membership with
    | none =>
      obtain ⟨reason, hmem⟩ := h.guest hsome hbetween
      exact ⟨reason, List.mem_append_left _ hmem⟩
    | some membership =>
      obtain ⟨reason, hmem⟩ := hmore.guest (by rw [hbetween]; rfl) hnone
      exact ⟨reason, List.mem_append_right _ hmem⟩

theorem Follows.trans (h : Follows s t more) (hmore : Follows t u rest) :
    Follows s u (more ++ rest) where
  toKeeps := h.toKeeps.trans hmore.toKeeps
  warnings := by rw [hmore.warnings, h.warnings, List.foldl_append]

/-- What is told is of no concern here, and neither proxy nor host nor warnings change. -/
theorem Follows.of_mute (hmore : ∀ notice ∈ more, notice.isMute = true)
    (hwarnings : t.warnings = s.warnings) (hhosted : t.hosted = s.hosted)
    (hguest : t.membership = s.membership) : Follows s t more where
  unfinished call outcome hmem := absurd (hmore _ hmem) Bool.false_ne_true
  forbidden hp2p := (congrArg Warnings.p2p hwarnings).trans hp2p
  hosted _ := hhosted ▸ .refl _
  kept hsome hnone := absurd hnone (not_lost hhosted hsome)
  guest hsome hnone := absurd hnone (not_lost hguest hsome)
  warnings := by rw [hwarnings, s.warnings.foldl_heed_of_mute hmore]

namespace Act

/-- Between the acts errors are heeded, and nothing is lost. -/
def Heeds (a b : Act) : Prop :=
  ∃ more, b.told = a.told ++ more ∧ Follows a.session b.session more

namespace Heeds

variable {a b c : Act}

theorem refl (a : Act) : Heeds a a :=
  ⟨[], (List.append_nil _).symm, .of_mute (List.forall_mem_nil _) rfl rfl rfl⟩

theorem trans (h : Heeds a b) (hmore : Heeds b c) : Heeds a c := by
  obtain ⟨more, hbefore, hfollows⟩ := h
  obtain ⟨rest, hafter, hrest⟩ := hmore
  exact ⟨more ++ rest, by rw [hafter, hbefore, List.append_assoc], hfollows.trans hrest⟩

theorem step (h : Heeds a b) {more : List Notice} (htold : c.told = b.told ++ more)
    (hfollows : Follows b.session c.session more) : Heeds a c :=
  h.trans ⟨more, htold, hfollows⟩

theorem same (h : Heeds a b) (htold : c.told = b.told)
    (hwarnings : c.session.warnings = b.session.warnings)
    (hhosted : c.session.hosted = b.session.hosted)
    (hguest : c.session.membership = b.session.membership) : Heeds a c :=
  h.step (htold.trans (List.append_nil _).symm)
    (.of_mute (List.forall_mem_nil _) hwarnings hhosted hguest)

theorem update (h : Heeds a b) {f : Session → Session}
    (hwarnings : (f b.session).warnings = b.session.warnings)
    (hhosted : (f b.session).hosted = b.session.hosted)
    (hguest : (f b.session).membership = b.session.membership) : Heeds a (b.update f) :=
  h.same rfl hwarnings hhosted hguest

theorem tell (h : Heeds a b) {notice : Notice} (hnotice : notice.isMute = true) :
    Heeds a (b.tell notice) :=
  h.step rfl (.of_mute (List.forall_mem_singleton.mpr hnotice) rfl rfl rfl)

theorem foldl {α : Type} {f : Act → α → Act} (xs : List α) (h : Heeds a b)
    (hf : ∀ b, ∀ x ∈ xs, Heeds a b → Heeds a (f b x)) : Heeds a (xs.foldl f b) := by
  apply List.foldlRecOn xs f h
  intro b hb x hx
  exact hf b x hx hb

theorem wake (h : Heeds a b) (activity : Activity) : Heeds a (b.wake activity) := by
  obtain ⟨ready, hwake⟩ := b.wake_eq activity
  rw [hwake]
  exact h.same rfl rfl rfl rfl

theorem post (h : Heeds a b) (caller : Option Nat) (target : Target) (packet : Packet) :
    Heeds a (b.post caller target packet) :=
  h.tell rfl

theorem raise (h : Heeds a b) {signal : Signal} (hsignal : signal ≠ .relayError) :
    Heeds a (b.raise signal) := by
  refine foldl _ (h.update ?_ rfl rfl) fun _ _ _ h => h.wake _
  simp [warnings, hsignal.symm]

/-! ### The hosted proxy and networks -/

theorem mute_of_mem_map_host (notices : List Overlay.Notice) :
    ∀ notice ∈ notices.map Notice.host, notice.isMute = true := by
  intro _ hmem
  obtain ⟨notice, _, rfl⟩ := List.mem_map.mp hmem
  rfl

theorem adopt (h : Heeds a b) {host : Host} (hhost : b.session.hosted = some host)
    (move : Host.Move) : Heeds a (b.adopt (host.move move)) := by
  obtain ⟨ready, hadopt⟩ := b.adopt_eq (host.move move)
  have hmute := mute_of_mem_map_host (host.move move).notices
  rw [hadopt]
  refine h.step rfl {
    unfinished := fun call outcome hmem => absurd (hmute _ hmem) Bool.false_ne_true
    forbidden := id
    hosted := fun _ next hnext => ⟨host, [move], hhost, (Option.some.inj hnext).symm⟩
    kept := fun _ hnone => absurd hnone (Option.some_ne_none _)
    guest := fun hsome hnone => absurd hnone (not_lost rfl hsome)
    warnings := (Warnings.foldl_heed_of_mute _ hmute).symm }

theorem atHost (h : Heeds a b) (move : Host.Move) : Heeds a (b.atHost (·.move move)) := by
  rw [Act.atHost]
  split
  · rename_i host hhost
    exact h.adopt hhost move
  · exact h

/-- A proxy is only hosted afresh where that is permitted. -/
theorem hostProxy (h : Heeds a b) : Heeds a b.hostProxy := by
  rw [Act.hostProxy]
  split
  · rename_i hpermitted
    obtain ⟨ready, notices, hdispose⟩ := b.disposeHost_eq
    have hmute := mute_of_mem_map_host notices
    rw [hdispose]
    refine h.step rfl {
      unfinished := fun call outcome hmem => absurd (hmute _ hmem) Bool.false_ne_true
      forbidden := id
      hosted := fun hforbidden => absurd (hforbidden.symm.trans hpermitted) Bool.false_ne_true
      kept := fun _ hnone => absurd hnone (Option.some_ne_none _)
      guest := fun hsome hnone => absurd hnone (not_lost rfl hsome)
      warnings := (Warnings.foldl_heed_of_mute _ hmute).symm }
  · exact h

theorem leave (h : Heeds a b) : Heeds a b.leave := by
  cases hnetwork : b.session.inNetwork with
  | false =>
    rw [Act.leave, if_neg (by rw [hnetwork]; exact Bool.false_ne_true)]
    exact h
  | true =>
    obtain ⟨ready, notices, hleave⟩ := leave_eq hnetwork
    have hmute : ∀ notice ∈ notices.map Notice.host ++
        [.changed (.left b.session.leaveReason)], notice.isMute = true :=
      List.forall_mem_append.mpr ⟨mute_of_mem_map_host _, List.forall_mem_singleton.mpr rfl⟩
    have hleft : ∃ reason, .changed (.left reason) ∈ notices.map Notice.host ++
        [.changed (.left b.session.leaveReason)] := ⟨_, List.mem_concat_self⟩
    rw [hleave]
    refine h.step (List.append_assoc ..) {
      unfinished := fun call outcome hmem => absurd (hmute _ hmem) Bool.false_ne_true
      forbidden := id
      hosted := fun _ => .none _
      kept := fun _ _ => hleft
      guest := fun _ _ => hleft
      warnings := ?_ }
    rw [Warnings.foldl_heed_of_mute _ hmute]
    simp [warnings]

theorem close (h : Heeds a b) (receiver : Receiver) : Heeds a (b.close receiver) := by
  rw [close_eq]
  exact (h.leave.update rfl rfl rfl).tell rfl

theorem updatePassphrase (h : Heeds a b) (call : Nat) : Heeds a (b.updatePassphrase call) := by
  rw [Act.updatePassphrase]
  split
  · exact h
  · exact (h.update rfl rfl rfl).post _ _ _

theorem stopReceiver (h : Heeds a b) (stopper : Stopper) : Heeds a (b.stopReceiver stopper).2 := by
  obtain ⟨receiver, ready, hstop⟩ := b.stopReceiver_eq stopper
  rw [hstop]
  exact h.same rfl rfl rfl rfl

/-! ### Calls, before they look at the link -/

theorem refreshIdle (h : Heeds a b) : Heeds a b.refreshIdle := by
  rw [Act.refreshIdle]
  dsimp only
  split
  · exact (h.update rfl rfl rfl).wake _
  · exact h.update rfl rfl rfl

theorem prepare (h : Heeds a b) (operation : Operation) : Heeds a (b.prepare operation) := by
  have hidle := h.update (f := fun s => { s with idle := s.idle.disable }) rfl rfl rfl
  cases operation with
  | scan filter =>
    have hnetworks := h.update (f := fun s => { s with networks := [] }) rfl rfl rfl
    rw [Act.prepare]
    split
    · exact hnetworks
    · exact hnetworks.refreshIdle
  | createPublic request advertised => exact hidle.hostProxy
  | createPrivate request advertised => exact hidle.hostProxy
  | connectPublic request => exact hidle
  | connectPrivate request => exact hidle

theorem postInNetwork (h : Heeds a b) (call : Nat) (packet : Packet) :
    Heeds a (b.postInNetwork call packet) := by
  rw [Act.postInNetwork]
  split
  · exact h.post _ _ _
  · exact h

/-! ### Packets and the end of the receive loop -/

theorem joinProxy (h : Heeds a b) (offer : ProxyOffer) : Heeds a (b.joinProxy offer) := by
  rw [Act.joinProxy]
  split
  · exact h
  · rename_i ip _
    have hguest : Heeds a (b.update fun s =>
        { s with
          membership := some ⟨s.offers, { endpoint := { ip, port := offer.port } }⟩
          offers := s.offers + 1 }) := by
      refine h.step (List.append_nil _).symm {
        Follows.of_mute (List.forall_mem_nil _) rfl rfl rfl with
        guest := fun _ hnone => absurd hnone (Option.some_ne_none _)
        warnings := rfl }
    have hoffered := hguest.post none (b.session.targetOf { ip, port := offer.port })
      (.proxyOffer offer)
    dsimp only
    split
    · exact hoffered.leave
    · exact hoffered

theorem acceptOverlay (h : Heeds a b) (config : OverlayConfig) :
    Heeds a (b.acceptOverlay config) := by
  rw [Act.acceptOverlay]
  split
  · rename_i membership _
    have hassigned : Heeds a (b.update fun s =>
        { s with
          membership := some { membership with guest := membership.guest.assign config }
          waiting := s.waiting.map (·.assigned membership.id config) }) := by
      refine h.step (List.append_nil _).symm {
        Follows.of_mute (List.forall_mem_nil _) rfl rfl rfl with
        guest := fun _ hnone => absurd hnone (Option.some_ne_none _)
        warnings := ?_ }
      simp [warnings, Act.update, List.filterMap_map, listener?_assigned]
    exact (hassigned.foldl _ fun _ _ _ h => h.wake _).post _ _ _
  · exact ((h.update rfl rfl rfl).post _ _ _).tell rfl

/-- The relay reports an error that calls are to hear of. -/
theorem report (h : Heeds a b) (sender : Endpoint) {error : NetworkError}
    (herror : error ≠ .portUnreachable) :
    Heeds a ((b.tell (.handled sender (.networkError error))).update fun s =>
      { s with lastError := error, latches := s.latches.raise .relayError }) := by
  refine h.step rfl {
    unfinished := by simp
    forbidden := id
    hosted := fun _ => .refl _
    kept := fun hsome hnone => absurd hnone (not_lost rfl hsome)
    guest := fun hsome hnone => absurd hnone (not_lost rfl hsome)
    warnings := ?_ }
  cases error with
  | portUnreachable => exact absurd rfl herror
  | _ => simp [warnings, Warnings.heed, Act.update, Act.tell]

/-- The relay reports that the proxy hosted here cannot be reached. -/
theorem forbid (h : Heeds a b) (sender : Endpoint) :
    Heeds a ((b.tell (.handled sender (.networkError .portUnreachable))).update fun s =>
      { s with p2p := false }) :=
  h.step rfl {
    unfinished := by simp
    forbidden := fun _ => rfl
    hosted := fun _ => .refl _
    kept := fun hsome hnone => absurd hnone (not_lost rfl hsome)
    guest := fun hsome hnone => absurd hnone (not_lost rfl hsome)
    warnings := rfl }

theorem handle (h : Heeds a b) (sender : Endpoint) (packet : Packet) :
    Heeds a (b.handle sender packet) := by
  have htold (hmute : (Notice.handled sender packet).isMute = true) :
      Heeds a (b.tell (.handled sender packet)) := h.tell hmute
  cases packet with
  | hello identity => exact ((htold rfl).update rfl rfl rfl).raise (by simp)
  | connected info => exact (((htold rfl).update rfl rfl rfl).raise (by simp)).tell rfl
  | syncNetwork info => exact ((htold rfl).post _ _ _).tell rfl
  | reject removal =>
    exact (htold rfl).update (f := fun s => { s with leaveReason := removal.reason }) rfl rfl rfl
  | rejectReply => exact (htold rfl).raise (by simp)
  | disconnect ip => exact (htold rfl).leave
  | scanReply info =>
    exact (htold rfl).update (f := fun s => { s with networks := s.networks ++ [info] }) rfl rfl rfl
  | scanEnd => exact (htold rfl).raise (by simp)
  | proxyOffer offer =>
    show Heeds a (if _ then _ else _)
    split
    · exact (htold rfl).joinProxy offer
    · exact (htold rfl).atHost (.apply _ sender offer)
  | proxyToken token => exact (htold rfl).atHost (.addToken token)
  | proxyState presence => exact (htold rfl).atHost (.applyPresence presence)
  | overlayConfig config => exact (htold rfl).acceptOverlay config
  | ping ping =>
    show Heeds a (if ping.requester = 0 then _ else _)
    split
    · exact (htold rfl).post none .relay (.ping ping)
    · exact htold rfl
  | networkError error =>
    cases error with
    | portUnreachable => exact h.forbid sender
    | _ => exact (h.report sender (by simp)).foldl _ fun _ _ _ h => h.wake _
  | proxyConnect addressing => exact (htold rfl).tell rfl
  | proxyConnectReply addressing => exact (htold rfl).tell rfl
  | proxyData header data => exact (htold rfl).tell rfl
  | proxyDisconnect closure => exact (htold rfl).tell rfl
  | _ => exact htold rfl

theorem receive (h : Heeds a b) (sender : Endpoint) (bytes : Bytes) :
    Heeds a (b.receive sender bytes) := by
  rcases b.receive_cases sender bytes with ⟨host, hhost, hreceive⟩ | hreceive
  · rw [hreceive]
    exact h.adopt hhost _
  · rw [hreceive]
    exact foldl _ (h.update rfl rfl rfl) fun _ packet _ h => h.handle sender packet

theorem cleanup (h : Heeds a b) : Heeds a b.cleanup := by
  rw [Act.cleanup]
  split
  · have hclosed := h.close .absent
    dsimp only
    split
    · exact hclosed
    · rename_i call _
      have hreleased := hclosed.update (f := fun s =>
        { s with waiting := s.waiting.map (·.released call) })
        (by simp [warnings, List.filterMap_map, listener?_released]) rfl rfl
      exact hreleased.wake _
  · exact h

end Heeds

end Act

end LocalPlay.Session
