import LocalPlay.Proofs.Session.Stretches.Alert

/-!
# Acts that keep a session alert

`Rests` is about acts that make nothing ready: at most the hosted proxy is gone after them, with all
that waits for it. `Calm` allows for anything by which calls wait as they did and an alert session
stays alert. The acts are gone through in the order of their definitions; calls that begin to wait
or go on, and the end of the receive loop, are left for the turns.
-/

namespace LocalPlay.Session

open Net Wire Overlay Timing

namespace Act

/-! ### Acts after which nobody has more to do -/

structure Rests (a b : Act) : Prop where
  affairs : b.session.affairs = a.session.affairs
  lowered : ∀ signal, b.session.latches.isRaised signal = true →
    a.session.latches.isRaised signal = true
  ready : b.session.ready.Sublist a.session.ready
  kept : ∀ activity ∈ a.session.ready, (∀ job, activity ≠ .host job) → activity ∈ b.session.ready
  hosted : b.session.hosted = none ∨
    b.session.hosted = a.session.hosted ∧ a.session.ready ⊆ b.session.ready
  told : a.told <+: b.told

namespace Rests

variable {a b c : Act}

theorem refl (a : Act) : Rests a a :=
  ⟨rfl, fun _ hraised => hraised, .refl _, fun _ hmem _ => hmem, .inr ⟨rfl, List.Subset.refl _⟩,
    List.prefix_refl _⟩

theorem trans (h : Rests a b) (hmore : Rests b c) : Rests a c where
  affairs := hmore.affairs.trans h.affairs
  lowered signal hraised := h.lowered signal (hmore.lowered signal hraised)
  ready := hmore.ready.trans h.ready
  kept activity hmem hjob := hmore.kept activity (h.kept activity hmem hjob) hjob
  hosted := by
    rcases hmore.hosted with hnone | ⟨hsame, hready⟩
    · exact .inl hnone
    · rcases h.hosted with hnone | ⟨hfirst, hbefore⟩
      · exact .inl (hsame.trans hnone)
      · exact .inr ⟨hsame.trans hfirst, List.Subset.trans hbefore hready⟩
  told := h.told.trans hmore.told

theorem aside (h : Rests a b) (hduties : c.session.duties = b.session.duties)
    (htold : b.told <+: c.told) : Rests a c := by
  simp only [duties, Prod.mk.injEq] at hduties
  obtain ⟨haffairs, hlatches, hready, hhosted⟩ := hduties
  refine h.trans ⟨haffairs, fun signal hraised => hlatches ▸ hraised, ?_, ?_, ?_, htold⟩
  · rw [hready]
  · rw [hready]
    exact fun _ hmem _ => hmem
  · rw [hready]
    exact .inr ⟨hhosted, List.Subset.refl _⟩

theorem update (h : Rests a b) {f : Session → Session}
    (hduties : (f b.session).duties = b.session.duties) : Rests a (b.update f) :=
  h.aside hduties (List.prefix_refl _)

theorem tell (h : Rests a b) (notice : Notice) : Rests a (b.tell notice) :=
  h.aside rfl (List.prefix_append _ _)

theorem post (h : Rests a b) (caller : Option Nat) (target : Target) (packet : Packet) :
    Rests a (b.post caller target packet) :=
  h.tell _

theorem finish (h : Rests a b) (call : Nat) (outcome : Outcome) : Rests a (b.finish call outcome) :=
  h.tell _

theorem lower (h : Rests a b) (signal : Signal) : Rests a (b.lower signal) := by
  refine h.trans ⟨rfl, fun other hraised => ?_, .refl _, fun _ hmem _ => hmem,
    .inr ⟨rfl, List.Subset.refl _⟩, List.prefix_refl _⟩
  have hlowered : (b.session.latches.lower signal).isRaised other = true := hraised
  rw [Latches.isRaised_lower, Bool.and_eq_true] at hlowered
  exact hlowered.2

theorem takeError (h : Rests a b) : Rests a b.takeError.2 :=
  h.aside rfl (List.prefix_refl _)

theorem disposeHost (h : Rests a b) : Rests a b.disposeHost := by
  rw [Act.disposeHost]
  split
  · exact h
  · refine h.trans ⟨rfl, fun _ hraised => hraised, List.filter_sublist,
      fun activity hmem hjob => ?_, .inl rfl, List.prefix_append _ _⟩
    refine List.mem_filter.mpr ⟨hmem, ?_⟩
    cases activity with
    | host job => exact absurd rfl (hjob job)
    | _ => rfl

theorem leave (h : Rests a b) : Rests a b.leave := by
  rw [Act.leave]
  split
  · have hout := h.update (f := fun s =>
      { s with inNetwork := false, membership := none, overlay := none }) rfl
    exact (hout.disposeHost.lower .joined).tell _
  · exact h

theorem updatePassphrase (h : Rests a b) (call : Nat) : Rests a (b.updatePassphrase call) := by
  rw [Act.updatePassphrase]
  split
  · exact h
  · have hsent := h.update
      (f := fun s => { s with passphraseSent := some b.session.passphrase }) rfl
    exact hsent.post _ _ _

theorem finishScan (h : Rests a b) (call : Nat) (ended : Bool) :
    Rests a (b.finishScan call ended) :=
  h.takeError.finish _ _

theorem giveUp (h : Rests a b) (call : Nat) (operation : Operation) :
    Rests a (b.giveUp call operation) := by
  cases operation with
  | scan filter => exact h.finishScan call false
  | createPublic request advertised => exact h.disposeHost.finish _ _
  | createPrivate request advertised => exact h.disposeHost.finish _ _
  | connectPublic request => exact h.finish _ _
  | connectPrivate request => exact h.finish _ _

theorem postInNetwork (h : Rests a b) (call : Nat) (packet : Packet) :
    Rests a (b.postInNetwork call packet) := by
  rw [Act.postInNetwork]
  split
  · exact h.post _ _ _
  · exact h

end Rests

theorem exists_finished_giveUp (a : Act) (call : Nat) (operation : Operation) :
    ∃ outcome, .finished call outcome ∈ (a.giveUp call operation).told := by
  cases operation with
  | _ => exact ⟨_, List.mem_concat_self⟩

/-- An operation waits for its answer, and nothing else is to be done before. -/
theorem exists_operate_eq (a : Act) (call : Nat) (operation : Operation) :
    ∃ b, Rests a b ∧ a.operate call operation =
      b.pause call (some (operation.patience a.session.timeouts)) operation.pause := by
  cases operation with
  | scan filter =>
    exact ⟨_, ((((Rests.refl a).updatePassphrase call).lower _).lower _).post _ _ _, rfl⟩
  | createPublic request advertised =>
    exact ⟨_, ((Rests.refl a).post _ _ _).updatePassphrase call, rfl⟩
  | createPrivate request advertised =>
    exact ⟨_, ((Rests.refl a).updatePassphrase call).post _ _ _, rfl⟩
  | connectPublic request => exact ⟨_, ((Rests.refl a).lower _).post _ _ _, rfl⟩
  | connectPrivate request => exact ⟨_, ((Rests.refl a).lower _).post _ _ _, rfl⟩

/-! ### Acts that leave calls as they are -/

/-- Calls wait as they did, for all that time or this session have decided. -/
structure Frames (a b : Act) : Prop where
  clock : b.session.clock = a.session.clock
  timeouts : b.session.timeouts = a.session.timeouts
  calls : b.session.calls = a.session.calls
  waiting : b.session.waiting.map (·.bare) = a.session.waiting.map (·.bare)
  told : a.told <+: b.told

structure Calm (a b : Act) : Prop extends Frames a b where
  alert : ∀ current, a.session.Alert current → b.session.Alert current

theorem Frames.refl (a : Act) : Frames a a :=
  ⟨rfl, rfl, rfl, rfl, List.prefix_refl _⟩

theorem Frames.trans {a b c : Act} (h : Frames a b) (hmore : Frames b c) : Frames a c :=
  ⟨hmore.clock.trans h.clock, hmore.timeouts.trans h.timeouts, hmore.calls.trans h.calls,
    hmore.waiting.trans h.waiting, h.told.trans hmore.told⟩

theorem Rests.calm {a b : Act} (h : Rests a b) : Calm a b where
  clock := congrArg Affairs.clock h.affairs
  timeouts := congrArg Affairs.timeouts h.affairs
  calls := congrArg Affairs.calls h.affairs
  waiting := congrArg (List.map Waiting.bare ∘ Affairs.waiting) h.affairs
  told := h.told
  alert _ halert := halert.keep h.affairs h.lowered h.kept h.hosted

/-- Some activities are made ready, and none is forgotten for that. -/
theorem exists_foldl_wake_eq {α : Type} (activity : α → Activity) (xs : List α) (a : Act) :
    ∃ ready, xs.foldl (fun a x => a.wake (activity x)) a =
        { a with session := { a.session with ready } } ∧
      a.session.ready ⊆ ready ∧ ∀ x ∈ xs, activity x ∈ ready := by
  induction xs generalizing a with
  | nil => exact ⟨a.session.ready, rfl, List.Subset.refl _, List.forall_mem_nil _⟩
  | cons x xs ih =>
    obtain ⟨first, hwake, hfirst, hx⟩ : ∃ first, a.wake (activity x) =
        { a with session := { a.session with ready := first } } ∧
        a.session.ready ⊆ first ∧ activity x ∈ first := by
      rw [wake, update]
      split
      · rename_i hready
        exact ⟨a.session.ready, rfl, List.Subset.refl _, hready⟩
      · exact ⟨_, rfl, List.subset_append_left _ _, List.mem_concat_self⟩
    obtain ⟨ready, hrest, hkept, hxs⟩ := ih (a.wake (activity x))
    rw [hwake] at hrest hkept
    refine ⟨ready, ?_, List.Subset.trans hfirst hkept, List.forall_mem_cons.mpr ⟨hkept hx, hxs⟩⟩
    rw [List.foldl_cons, hwake, hrest]

theorem exists_wake_eq (a : Act) (activity : Activity) :
    ∃ ready, a.wake activity = { a with session := { a.session with ready } } ∧
      a.session.ready ⊆ ready ∧ activity ∈ ready := by
  obtain ⟨ready, hwake, hkept, hmem⟩ := exists_foldl_wake_eq id [activity] a
  exact ⟨ready, hwake, hkept, hmem activity (List.mem_singleton_self _)⟩

/-- The proxy moves. If that is its turn, whoever has looked is not to look again at once. -/
theorem alert_adopt {b : Act} {current next : Option Activity} (h : b.session.Alert current)
    {host : Host} (hhosted : b.session.hosted = some host) (move : Host.Move)
    (hnext : ∀ activity, current = some activity → next = some activity ∨
      ∃ job, activity = .host job ∧ ∀ applicant ∈ (host.move move).host.applicants,
        job = .consider applicant.id → b.session.clock < applicant.deadline) :
    (b.adopt (host.move move)).session.Alert next := by
  obtain ⟨ready, hadopt, hkept, hwoken⟩ := exists_foldl_wake_eq Activity.host (host.move move).jobs
    { session := { b.session with hosted := some (host.move move).host }
      told := b.told ++ (host.move move).notices.map .host }
  have hscene : b.adopt (host.move move) = _ := hadopt
  rw [hscene]
  refine h.rehost ((h.hosted host hhosted).move move) (fun activity hjob hhand => ?_)
    fun applicant hmem hover => ?_
  · rcases hhand with hready | hcurrent
    · exact .inl (hkept hready)
    · rcases hnext activity hcurrent with hnext | ⟨job, hown, -⟩
      · exact .inr hnext
      · exact absurd hown (hjob job)
  · rcases Host.mem_applicants_move hmem with hold | hnew
    · rcases h.applicants host hhosted applicant hold hover with hready | hcurrent
      · exact .inl (hkept hready)
      · rcases hnext _ hcurrent with hnext | ⟨job, hown, hlook⟩
        · exact .inr hnext
        · exact absurd hover (Nat.not_le_of_lt (hlook applicant hmem (Activity.host.inj hown).symm))
    · exact .inl (hwoken _ hnew)

namespace Calm

variable {a b c : Act}

theorem refl (a : Act) : Calm a a :=
  (Rests.refl a).calm

theorem trans (h : Calm a b) (hmore : Calm b c) : Calm a c where
  toFrames := h.toFrames.trans hmore.toFrames
  alert current halert := hmore.alert current (h.alert current halert)

theorem rests (h : Calm a b) (hmore : Rests b c) : Calm a c :=
  h.trans hmore.calm

/-- The session is changed where calls do not look, and stays alert. -/
theorem session (h : Calm a b)
    (hframe : c.session.clock = b.session.clock ∧ c.session.timeouts = b.session.timeouts ∧
      c.session.calls = b.session.calls ∧ c.session.waiting = b.session.waiting)
    (htold : b.told <+: c.told)
    (halert : ∀ current, b.session.Alert current → c.session.Alert current) : Calm a c :=
  h.trans ⟨⟨hframe.1, hframe.2.1, hframe.2.2.1, by rw [hframe.2.2.2], htold⟩, halert⟩

theorem wake (h : Calm a b) (activity : Activity) : Calm a (b.wake activity) := by
  obtain ⟨ready, hwake, hkept, -⟩ := b.exists_wake_eq activity
  rw [hwake]
  exact h.session ⟨rfl, rfl, rfl, rfl⟩ (List.prefix_refl _) fun _ halert => halert.woken hkept

theorem raise (h : Calm a b) (signal : Signal) : Calm a (b.raise signal) := by
  obtain ⟨ready, hwake, hkept, hwoken⟩ := exists_foldl_wake_eq (fun w : Waiting => .resume w.id)
    (b.session.waiting.filter (signal ∈ ·.pause.awaited))
    (b.update fun s => { s with latches := s.latches.raise signal })
  have hraise : b.raise signal = _ := hwake
  rw [hraise]
  refine h.session ⟨rfl, rfl, rfl, rfl⟩ (List.prefix_refl _) fun _ halert => ?_
  exact halert.raise hkept fun w hw hawaited =>
    hwoken w (List.mem_filter.mpr ⟨hw, decide_eq_true hawaited⟩)

/-! ### The hosted proxy and networks -/

theorem adopt (h : Calm a b) {host : Host} (hhosted : b.session.hosted = some host)
    (move : Host.Move) : Calm a (b.adopt (host.move move)) := by
  have hadopt (current : Option Activity) (halert : b.session.Alert current) :
      (b.adopt (host.move move)).session.Alert current :=
    alert_adopt halert hhosted move fun _ hcurrent => .inl hcurrent
  obtain ⟨ready, hscene⟩ := b.adopt_eq (host.move move)
  rw [hscene] at hadopt ⊢
  exact h.session ⟨rfl, rfl, rfl, rfl⟩ (List.prefix_append _ _) hadopt

theorem atHost (h : Calm a b) (move : Host.Move) : Calm a (b.atHost (·.move move)) := by
  rw [Act.atHost]
  split
  · rename_i host hhost
    exact h.adopt hhost move
  · exact h

theorem hostProxy (h : Calm a b) : Calm a b.hostProxy := by
  rw [Act.hostProxy]
  split
  · refine (h.rests (Rests.refl b).disposeHost).session ⟨rfl, rfl, rfl, rfl⟩ (List.prefix_refl _)
      fun _ halert => ?_
    exact halert.rehost (Host.reachable_new _) (fun _ _ hhand => hhand)
      (List.forall_mem_nil _)
  · exact h

theorem stopReceiver (h : Calm a b) (stopper : Stopper) : Calm a (b.stopReceiver stopper).2 := by
  rw [Act.stopReceiver]
  cases hreceiver : b.session.receiver with
  | absent => exact h
  | stopping other => exact h
  | ended =>
    refine h.session ⟨rfl, rfl, rfl, rfl⟩ (List.prefix_refl _) fun _ halert => ?_
    have hnone := halert.ne_cleanup (by simp [hreceiver])
    exact { halert with
      stops := fun w hw hpause => absurd hpause (hnone w hw)
      ending := fun stopper hstopping => by cases hstopping
      closed := fun _ => .inl rfl }
  | listening =>
    obtain ⟨ready, hwake, hkept, hmem⟩ :=
      (b.update fun s => { s with receiver := .stopping stopper }).exists_wake_eq .cleanup
    rw [hwake]
    refine h.session ⟨rfl, rfl, rfl, rfl⟩ (List.prefix_refl _) fun _ halert => ?_
    have hnone := halert.ne_cleanup (by simp [hreceiver])
    refine { halert.woken hkept with
      stops := fun w hw hpause => absurd hpause (hnone w hw)
      ending := fun _ _ => .inl hmem
      closed := fun hidle => ?_ }
    have hclosed := halert.closed hidle
    rw [hreceiver] at hclosed
    rcases hclosed with hclosed | hclosed
    · cases hclosed
    · cases hclosed

/-! ### Calls that begin -/

theorem refreshIdle (h : Calm a b) : Calm a b.refreshIdle := by
  have hidle : ∀ time,
      ((b.session.idle.refresh b.session.clock).reach b.session.clock).2.deadline = some time →
        b.session.clock < time := by
    intro time htime
    rw [Countdown.reach] at htime
    split at htime
    · cases htime
    · rename_i hahead
      have hdeadline : (b.session.idle.refresh b.session.clock).deadline = some time := htime
      rw [Countdown.isOver, hdeadline, Option.any_some, decide_eq_true_iff] at hahead
      exact Nat.lt_of_not_le hahead
  have hrefreshed := h.session (c := b.update fun s =>
      { s with idle := ((s.idle.refresh s.clock).reach s.clock).2 })
    ⟨rfl, rfl, rfl, rfl⟩ (List.prefix_refl _) fun _ halert => { halert with idle := hidle }
  rw [Act.refreshIdle]
  dsimp only
  split
  · exact hrefreshed.wake _
  · exact hrefreshed

theorem disableIdle (h : Calm a b) :
    Calm a (b.update fun s => { s with idle := s.idle.disable }) :=
  h.session ⟨rfl, rfl, rfl, rfl⟩ (List.prefix_refl _) fun _ halert =>
    { halert with idle := fun _ => nofun }

theorem prepare (h : Calm a b) (operation : Operation) : Calm a (b.prepare operation) := by
  cases operation with
  | scan filter =>
    have hnetworks := h.rests ((Rests.refl b).update (f := fun s => { s with networks := [] }) rfl)
    rw [Act.prepare]
    split
    · exact hnetworks
    · exact hnetworks.refreshIdle
  | createPublic request advertised => exact h.disableIdle.hostProxy
  | createPrivate request advertised => exact h.disableIdle.hostProxy
  | connectPublic request => exact h.disableIdle
  | connectPrivate request => exact h.disableIdle

/-! ### Packets -/

theorem joinProxy (h : Calm a b) (offer : ProxyOffer) : Calm a (b.joinProxy offer) := by
  rw [Act.joinProxy]
  split
  · exact h
  · rename_i ip _
    have hguest := (Rests.refl b).update (f := fun s =>
      { s with
        membership := some ⟨s.offers, { endpoint := { ip, port := offer.port } }⟩
        offers := s.offers + 1 }) rfl
    have hoffered := hguest.post none (b.session.targetOf { ip, port := offer.port })
      (.proxyOffer offer)
    dsimp only
    split
    · exact h.rests hoffered.leave
    · exact h.rests hoffered

theorem acceptOverlay (h : Calm a b) (config : OverlayConfig) :
    Calm a (b.acceptOverlay config) := by
  rw [Act.acceptOverlay]
  split
  · rename_i membership _
    obtain ⟨ready, hwake, hkept, hwoken⟩ := exists_foldl_wake_eq (fun w : Waiting => .resume w.id)
      ((b.session.waiting.map (·.assigned membership.id config)).filter
        (·.pause.isOfGuest membership.id))
      (b.update fun s =>
        { s with
          membership := some { membership with guest := membership.guest.assign config }
          waiting := s.waiting.map (·.assigned membership.id config) })
    have hassigned : Calm b
        { session := { b.session with
            membership := some { membership with guest := membership.guest.assign config }
            waiting := b.session.waiting.map (·.assigned membership.id config)
            ready }
          told := b.told } := by
      refine ⟨⟨rfl, rfl, rfl, ?_, List.prefix_refl _⟩, fun current halert => ?_⟩
      · rw [List.map_map]
        exact List.map_congr_left fun w _ => w.bare_assigned membership.id config
      · refine halert.assign _ membership.id config hkept fun w hw arrived outcome hpause => ?_
        have hmem := hwoken (w.assigned membership.id config)
          (List.mem_filter.mpr ⟨List.mem_map_of_mem hw, ?_⟩)
        · rwa [w.id_assigned] at hmem
        · rw [Waiting.assigned, hpause]
          exact decide_eq_true rfl
    have hposted := congrArg (fun a : Act =>
      a.post none (a.session.targetOf membership.guest.endpoint) (.overlayConfig config)) hwake
    refine (congrArg (Calm a) hposted).mpr ?_
    exact h.trans (hassigned.rests ((Rests.refl _).post _ _ _))
  · exact h.rests ((((Rests.refl b).update rfl).post _ _ _).tell _)

theorem handle (h : Calm a b) (sender : Endpoint) (packet : Packet) :
    Calm a (b.handle sender packet) := by
  have htold := h.rests ((Rests.refl b).tell (.handled sender packet))
  have haside := (Rests.refl b).tell (.handled sender packet)
  cases packet with
  | hello identity =>
    have hgreeted := h.session (c := (b.tell (.handled sender (.hello identity))).update fun s =>
        { s with identity, phase := .connected })
      ⟨rfl, rfl, rfl, rfl⟩ (List.prefix_append _ _) fun _ halert =>
        { halert with closed := fun hidle => by cases hidle }
    exact hgreeted.raise .handshake
  | connected info =>
    have harrived := h.rests (haside.update (f := fun s =>
      { s with inNetwork := true, leaveReason := .none }) rfl)
    exact (harrived.raise .joined).rests ((Rests.refl _).tell _)
  | syncNetwork info => exact h.rests ((haside.post _ _ _).tell _)
  | reject removal =>
    exact h.rests (haside.update (f := fun s => { s with leaveReason := removal.reason }) rfl)
  | rejectReply => exact htold.raise .rejectReply
  | disconnect ip => exact h.rests haside.leave
  | scanReply info =>
    exact h.rests (haside.update (f := fun s => { s with networks := s.networks ++ [info] }) rfl)
  | scanEnd => exact htold.raise .scanEnd
  | proxyOffer offer =>
    show Calm a (if _ then _ else _)
    split
    · exact htold.joinProxy offer
    · exact htold.atHost (.apply _ sender offer)
  | proxyToken token => exact htold.atHost (.addToken token)
  | proxyState presence => exact htold.atHost (.applyPresence presence)
  | overlayConfig config => exact htold.acceptOverlay config
  | ping ping =>
    show Calm a (if ping.requester = 0 then _ else _)
    split
    · exact h.rests (haside.post none .relay (.ping ping))
    · exact htold
  | networkError error =>
    have herror := h.rests (haside.update (f := fun s => { s with lastError := error }) rfl)
    cases error with
    | portUnreachable => exact h.rests (haside.update (f := fun s => { s with p2p := false }) rfl)
    | _ => exact herror.raise .relayError
  | proxyConnect addressing => exact h.rests (haside.tell _)
  | proxyConnectReply addressing => exact h.rests (haside.tell _)
  | proxyData header data => exact h.rests (haside.tell _)
  | proxyDisconnect closure => exact h.rests (haside.tell _)
  | _ => exact htold

theorem receive (h : Calm a b) (sender : Endpoint) (bytes : Bytes) :
    Calm a (b.receive sender bytes) := by
  rcases b.receive_cases sender bytes with ⟨host, hhost, hreceive⟩ | hreceive
  · rw [hreceive]
    exact h.adopt hhost _
  · rw [hreceive]
    generalize reassemble b.session.streams sender (bytes.take receiveLimit) = result
    obtain ⟨packets, streams⟩ := result
    have hstreams := h.rests ((Rests.refl b).update (f := fun s => { s with streams }) rfl)
    exact List.foldlRecOn (motive := Calm a) packets _ hstreams fun c hc packet _ =>
      hc.handle sender packet

/-- The link is only lost while the receive loop listens, so nobody waits for the loop to end. -/
theorem receiveFailed (h : Calm a b) (hlistening : b.session.receiver = .listening)
    (error : IoError) : Calm a (b.receiveFailed error) := by
  rw [Act.receiveFailed]
  cases error.severity with
  | recoverable => exact h.raise .relayError
  | datagramLost => exact h.raise .relayError
  | unrecoverable =>
    dsimp only
    rw [close_eq]
    have hleft := (Rests.refl b).leave
    refine (h.rests hleft).session ⟨rfl, rfl, rfl, rfl⟩ (List.prefix_append _ _) fun _ halert => ?_
    have hreceiver : b.leave.session.receiver = .listening :=
      (congrArg Affairs.receiver hleft.affairs).trans hlistening
    have hnone := halert.ne_cleanup (by simp [hreceiver])
    exact halert.unlink hnone (fun _ _ hhand => hhand) (.inr rfl)

end Calm
end Act

end LocalPlay.Session
