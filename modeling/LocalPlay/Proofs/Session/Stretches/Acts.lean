import LocalPlay.Proofs.Session.Steps
import LocalPlay.Proofs.Timing.Latch

/-!
# What acts lead to

`Leads` says that steps of a move lie between two acts. Here are the acts that all calls share, and
the requests, for which the latches are lowered and the passphrase is told first.
-/

namespace LocalPlay.Session

open Net Wire Overlay Timing

variable {origin : Session} {m : Move}

theorem link_congr {s t : Session} (hopen : s.transportOpen = t.transportOpen)
    (hfaults : s.faults = t.faults) (hrelay : s.relay = t.relay) : s.link = t.link := by
  funext target packet
  simp only [link, targetOf, hopen, hfaults, hrelay]

theorem Steps.append {s t u : Session} {told more : List Notice} (h : Steps origin m s t told)
    (hmore : Steps origin m t u more) : Steps origin m s u (told ++ more) := by
  induction hmore with
  | refl =>
    rw [List.append_nil]
    exact h
  | tail _ hstep ih =>
    rw [← List.append_assoc]
    exact .tail ih hstep

namespace Act

theorem wake_eq (a : Act) (activity : Activity) :
    ∃ ready, a.wake activity = { a with session := { a.session with ready } } :=
  foldl_wake_eq id [activity] a

/-- Between the acts lie steps of the move. -/
def Leads (origin : Session) (m : Move) (a b : Act) : Prop :=
  ∃ told, b.told = a.told ++ told ∧ Steps origin m a.session b.session told

namespace Leads

variable {a b c : Act}

theorem refl (a : Act) : Leads origin m a a :=
  ⟨[], (List.append_nil _).symm, .refl⟩

theorem step (h : Leads origin m a b) {told : List Notice}
    (hstep : Step origin m b.session c.session told) (htold : c.told = b.told ++ told) :
    Leads origin m a c := by
  obtain ⟨before, hbefore, hsteps⟩ := h
  exact ⟨before ++ told, by rw [htold, hbefore, List.append_assoc], .tail hsteps hstep⟩

theorem trans (h : Leads origin m a b) (hmore : Leads origin m b c) : Leads origin m a c := by
  obtain ⟨told, htold, hsteps⟩ := hmore
  obtain ⟨before, hbefore, hfirst⟩ := h
  exact ⟨before ++ told, by rw [htold, hbefore, List.append_assoc], hfirst.append hsteps⟩

theorem update (h : Leads origin m a b) {f : Session → Session}
    (hstep : Step origin m b.session (f b.session) []) : Leads origin m a (b.update f) :=
  h.step hstep (List.append_nil _).symm

theorem tell (h : Leads origin m a b) {notice : Notice} (hnotice : notice.isIncidental = true) :
    Leads origin m a (b.tell notice) :=
  h.step (.say notice hnotice) rfl

theorem tellAll (h : Leads origin m a b) {notices : List Notice}
    (hnotices : ∀ notice ∈ notices, notice.isIncidental = true) :
    Leads origin m a { b with told := b.told ++ notices } := by
  induction notices generalizing b with
  | nil =>
    rw [List.append_nil]
    exact h
  | cons notice notices ih =>
    obtain ⟨hnotice, hnotices⟩ := List.forall_mem_cons.mp hnotices
    have hrest := ih (h.tell hnotice) hnotices
    rw [Act.tell] at hrest
    rwa [List.append_cons]

theorem foldl {α : Type} {f : Act → α → Act} (xs : List α) (h : Leads origin m a b)
    (hf : ∀ b, ∀ x ∈ xs, Leads origin m a b → Leads origin m a (f b x)) :
    Leads origin m a (xs.foldl f b) := by
  apply List.foldlRecOn xs f h
  intro b hb x hx
  exact hf b x hx hb

theorem wake (h : Leads origin m a b) (activity : Activity) :
    Leads origin m a (b.wake activity) := by
  obtain ⟨ready, hwake⟩ := b.wake_eq activity
  rw [hwake]
  exact h.step (.aside ..) (List.append_nil _).symm

theorem finish (h : Leads origin m a b) (call : Nat) {outcome : Outcome}
    (houtcome : outcome.isJoined = false) : Leads origin m a (b.finish call outcome) := by
  refine h.tell ?_
  rw [Notice.isIncidental, houtcome]
  rfl

theorem post (h : Leads origin m a b) (caller : Option Nat) (target : Target) {packet : Packet}
    (hpacket : isOperational packet = false) : Leads origin m a (b.post caller target packet) := by
  refine h.tell ?_
  rw [Notice.isIncidental, hpacket]
  rfl

theorem raise (h : Leads origin m a b) {signal : Signal}
    (hsignal : signal ≠ .handshake ∧ signal ≠ .joined) : Leads origin m a (b.raise signal) :=
  (h.update (.raise signal hsignal)).foldl _ fun _ _ _ h => h.wake _

theorem lower (h : Leads origin m a b) {signal : Signal} (hsignal : signal ≠ .joined) :
    Leads origin m a (b.lower signal) :=
  h.update (.lower signal hsignal)

theorem takeError (h : Leads origin m a b) : Leads origin m a b.takeError.2 :=
  h.update (.aside ..)

/-! ### The hosted proxy and networks -/

theorem sayHost (h : Leads origin m a b) (notices : List Overlay.Notice) :
    Leads origin m a { b with told := b.told ++ notices.map .host } := by
  refine h.tellAll fun _ hmap => ?_
  obtain ⟨notice, _, rfl⟩ := List.mem_map.mp hmap
  rfl

theorem rehost (h : Leads origin m a b) (hosted : Option Host) (ready : List Activity)
    (notices : List Overlay.Notice)
    (hkept : hosted.isSome = true → b.session.hosted.isSome = true) :
    Leads origin m a
      { session := { b.session with hosted, ready }, told := b.told ++ notices.map .host } := by
  have hhost : Leads origin m a (b.update fun s => { s with hosted }) :=
    h.update (.host hosted fun hsome => .inl (hkept hsome))
  have hready : Leads origin m a (b.update fun s => { s with hosted, ready }) :=
    hhost.step (.aside ..) (List.append_nil _).symm
  exact hready.sayHost notices

theorem unhost (h : Leads origin m a b) (ready : List Activity) (notices : List Overlay.Notice) :
    Leads origin m a
      { session := { b.session with hosted := none, ready }
        told := b.told ++ notices.map .host } :=
  h.rehost none ready notices fun hnone => absurd hnone Bool.false_ne_true

end Leads

theorem disposeHost_eq (a : Act) :
    ∃ (ready : List Activity) (notices : List Overlay.Notice), a.disposeHost = {
      session := { a.session with hosted := none, ready }
      told := a.told ++ notices.map .host } := by
  rw [disposeHost]
  cases hhost : a.session.hosted with
  | none =>
    refine ⟨a.session.ready, [], ?_⟩
    have hsame : a.session = { a.session with hosted := none } := by rw [← hhost]
    rw [List.map_nil, List.append_nil, ← hsame]
  | some host => exact ⟨_, host.shutdown.notices, rfl⟩

theorem leave_eq {a : Act} (hnetwork : a.session.inNetwork = true) :
    ∃ (ready : List Activity) (notices : List Overlay.Notice), a.leave =
    { session := { a.session with
        inNetwork := false
        membership := none
        overlay := none
        hosted := none
        ready
        latches := a.session.latches.lower .joined }
      told := a.told ++ notices.map .host ++ [.changed (.left a.session.leaveReason)] } := by
  rw [leave, if_pos hnetwork]
  dsimp only
  obtain ⟨ready, notices, hdispose⟩ := (a.update fun s =>
    { s with inNetwork := false, membership := none, overlay := none }).disposeHost_eq
  exact ⟨ready, notices, by rw [hdispose]; rfl⟩

theorem inNetwork_leave (a : Act) : a.leave.session.inNetwork = false := by
  cases hnetwork : a.session.inNetwork with
  | false => rwa [leave, if_neg (by rw [hnetwork]; exact Bool.false_ne_true)]
  | true =>
    obtain ⟨ready, notices, hleave⟩ := leave_eq hnetwork
    rw [hleave]

/-- The link can as well be closed after the network is left. -/
theorem close_eq (a : Act) (receiver : Receiver) : a.close receiver =
    (a.leave.update fun s =>
      { s with
        receiver
        streams := []
        phase := .idle
        passphraseSent := none
        transportOpen := false }).tell .closed := by
  rw [close, leave, leave]
  cases hnetwork : a.session.inNetwork with
  | false => simp only [update, hnetwork, Bool.false_eq_true, if_false]
  | true =>
    simp only [update, hnetwork, if_true, disposeHost, lower, tell]
    cases a.session.hosted with
    | none => rfl
    | some host => rfl

theorem stopReceiver_eq (a : Act) (stopper : Stopper) :
    ∃ receiver ready, (a.stopReceiver stopper).2 =
      { a with session := { a.session with receiver, ready } } := by
  rw [stopReceiver]
  cases hreceiver : a.session.receiver with
  | listening =>
    obtain ⟨ready, hwake⟩ :=
      (a.update fun s => { s with receiver := .stopping stopper }).wake_eq .cleanup
    exact ⟨_, ready, hwake⟩
  | ended => exact ⟨.absent, a.session.ready, rfl⟩
  | _ => exact ⟨a.session.receiver, a.session.ready, rfl⟩

namespace Leads

variable {a b : Act}

theorem disposeHost (h : Leads origin m a b) : Leads origin m a b.disposeHost := by
  obtain ⟨ready, notices, hdispose⟩ := b.disposeHost_eq
  rw [hdispose]
  exact h.unhost ready notices

theorem adopt (h : Leads origin m a b) {host : Host} (hhost : b.session.hosted = some host)
    (scene : Scene) : Leads origin m a (b.adopt scene) := by
  obtain ⟨ready, hadopt⟩ := b.adopt_eq scene
  rw [hadopt]
  exact h.rehost _ ready scene.notices fun _ => by rw [hhost]; rfl

theorem hostProxy (h : Leads origin m a b) {operation : Operation}
    (hmove : m = .event (.call (.operate operation))) (hhosts : operation.hosts = true) :
    Leads origin m a b.hostProxy := by
  rw [Act.hostProxy]
  split
  · exact h.disposeHost.update (.host _ fun _ => .inr ⟨operation, hmove, hhosts⟩)
  · exact h

theorem leave (h : Leads origin m a b) (hmove : ∀ call, m ≠ .turn (.resume call)) :
    Leads origin m a b.leave := by
  cases hnetwork : b.session.inNetwork with
  | false =>
    rw [Act.leave, if_neg (by rw [hnetwork]; exact Bool.false_ne_true)]
    exact h
  | true =>
    obtain ⟨ready, notices, hleave⟩ := leave_eq hnetwork
    rw [hleave]
    exact (h.unhost ready notices).step (.leave hnetwork rfl hmove) rfl

theorem close (h : Leads origin m a b)
    (hmove : m = .turn .cleanup ∨ ∃ error, m = .event (.receiveError error)) (receiver : Receiver) :
    Leads origin m a (b.close receiver) := by
  have hnone (call : Nat) : m ≠ .turn (.resume call) := by
    rcases hmove with rfl | ⟨error, rfl⟩
    · exact nofun
    · exact nofun
  rw [close_eq]
  exact (h.leave hnone).step (.closeLink receiver hmove b.inNetwork_leave) rfl

theorem stopReceiver (h : Leads origin m a b) (stopper : Stopper) :
    Leads origin m a (b.stopReceiver stopper).2 := by
  obtain ⟨receiver, ready, hstop⟩ := b.stopReceiver_eq stopper
  rw [hstop]
  exact h.step (.aside ..) (List.append_nil _).symm

end Leads

/-! ### Requests -/

/-- The part that all operations have: ask, and wait for the answer. -/
def asked (a : Act) (call : Nat) (operation : Operation) : Act :=
  let a := operation.lowered.foldl lower a
  (a.post (some call) .relay (operation.request a.session.advertise)).pause call
    (some (operation.patience a.session.timeouts)) operation.pause

theorem asked_eq (a : Act) (call : Nat) (operation : Operation) :
    ∃ deadline refusal, a.asked call operation =
      { session := { a.session with
          latches := operation.lowered.foldl Latches.lower a.session.latches
          waiting := a.session.waiting ++ [⟨call, deadline, operation.pause⟩]
          ready := .resume call :: a.session.ready }
        told := a.told ++
          [.posted (some call) .relay (operation.request a.session.advertise) refusal] } := by
  cases operation with
  | _ => exact ⟨_, _, rfl⟩

theorem updatePassphrase_of_sent {a : Act}
    (hsent : a.session.passphraseSent = some a.session.passphrase) (call : Nat) :
    a.updatePassphrase call = a := by
  rw [updatePassphrase]
  exact if_pos hsent

theorem updatePassphrase_of_new {a : Act}
    (hnew : a.session.passphraseSent ≠ some a.session.passphrase) (call : Nat) :
    ∃ refusal, a.updatePassphrase call =
      { session := { a.session with passphraseSent := some a.session.passphrase }
        told := a.told ++ [.posted (some call) .relay
          (.passphrase (passphraseField a.session.passphrase)) refusal] } := by
  rw [updatePassphrase]
  exact ⟨_, if_neg hnew⟩

theorem session_updatePassphrase (a : Act) (call : Nat) : (a.updatePassphrase call).session =
    { a.session with passphraseSent := some a.session.passphrase } := by
  by_cases hsent : a.session.passphraseSent = some a.session.passphrase
  · rw [updatePassphrase_of_sent hsent, ← hsent]
  · obtain ⟨refusal, hupdate⟩ := updatePassphrase_of_new hsent call
    rw [hupdate]

theorem post_pause (a : Act) (caller : Option Nat) (target : Target) (packet : Packet) (call : Nat)
    (timeout : Option Nat) (pause : Pause) :
    (a.pause call timeout pause).post caller target packet =
      (a.post caller target packet).pause call timeout pause := by
  have hlink : (a.pause call timeout pause).session.link = a.session.link :=
    link_congr rfl rfl rfl
  rw [post, post, hlink]
  rfl

theorem updatePassphrase_pause (a : Act) (call other : Nat) (timeout : Option Nat) (pause : Pause) :
    (a.pause call timeout pause).updatePassphrase other =
      (a.updatePassphrase other).pause call timeout pause := by
  rw [updatePassphrase, updatePassphrase]
  by_cases hsent : a.session.passphraseSent = some a.session.passphrase
  · rw [if_pos hsent]
    exact if_pos hsent
  · rw [if_neg hsent, ← post_pause]
    exact if_neg hsent

/-- An operation is its request, with an update of the passphrase before it, after it, or not at
all. -/
theorem operate_eq (a : Act) (call : Nat) (operation : Operation) :
    a.operate call operation =
      match operation with
      | .scan _ | .createPrivate _ _ => (a.updatePassphrase call).asked call operation
      | .createPublic _ _ => (a.asked call operation).updatePassphrase call
      | .connectPublic _ | .connectPrivate _ => a.asked call operation := by
  -- Neither the profile nor the patience is read from what an update changes.
  have htimeouts : (a.updatePassphrase call).session.timeouts = a.session.timeouts := by
    rw [session_updatePassphrase]
  have hadvertise (profile : HostProfile) :
      (a.updatePassphrase call).session.advertise profile = a.session.advertise profile := by
    rw [session_updatePassphrase]
    rfl
  cases operation with
  | scan filter =>
    rw [operate, ← htimeouts]
    rfl
  | createPublic request advertised => exact (updatePassphrase_pause ..).symm
  | createPrivate request advertised =>
    rw [operate, ← hadvertise, ← htimeouts]
    rfl
  | connectPublic request => rfl
  | connectPrivate request => rfl

theorem operate_of_sent {a : Act} (hsent : a.session.passphraseSent = some a.session.passphrase)
    (call : Nat) (operation : Operation) : a.operate call operation = a.asked call operation := by
  rw [operate_eq]
  cases operation with
  | scan filter => rw [updatePassphrase_of_sent hsent]
  | createPrivate request advertised => rw [updatePassphrase_of_sent hsent]
  | createPublic request advertised =>
    obtain ⟨deadline, refusal, hasked⟩ := a.asked_eq call (.createPublic request advertised)
    refine updatePassphrase_of_sent ?_ call
    rw [hasked]
    exact hsent
  | connectPublic request => rfl
  | connectPrivate request => rfl

namespace Leads

variable {a b : Act}

theorem updatePassphrase (h : Leads origin m a b) (call : Nat) (hphase : b.session.phase ≠ .idle)
    (hlink : (∃ operation, m = .event (.call (.operate operation))) ∧
        b.session.phase = origin.phase ∨
      m = .turn (.resume call) ∧ b.session.latches.isRaised .handshake = true)
    (hsame : b.session.passphrase = origin.passphrase) :
    Leads origin m a (b.updatePassphrase call) := by
  by_cases hsent : b.session.passphraseSent = some b.session.passphrase
  · rw [updatePassphrase_of_sent hsent]
    exact h
  · obtain ⟨refusal, hupdate⟩ := updatePassphrase_of_new hsent call
    rw [hupdate]
    exact h.step (.updatePassphrase call refusal hphase hlink hsent hsame) rfl

theorem lowerAll (h : Leads origin m a b) {signals : List Signal}
    (hsignals : ∀ signal ∈ signals, signal ≠ .joined) :
    Leads origin m a { b with session :=
      { b.session with latches := signals.foldl Latches.lower b.session.latches } } := by
  induction signals generalizing b with
  | nil => exact h
  | cons signal signals ih =>
    obtain ⟨hsignal, hsignals⟩ := List.forall_mem_cons.mp hsignals
    exact ih (h.lower hsignal) hsignals

/-- To ask is one step, apart from the latches lowered before. -/
theorem asked (h : Leads origin m a b) (call : Nat) (operation : Operation)
    (hstep : ∀ latches, latches.isRaised .joined = b.session.latches.isRaised .joined →
      latches.isRaised .handshake = b.session.latches.isRaised .handshake →
      ∀ deadline refusal, Step origin m { b.session with latches }
        { b.session with
          latches
          waiting := b.session.waiting ++ [⟨call, deadline, operation.pause⟩] }
        [.posted (some call) .relay (operation.request b.session.advertise) refusal]) :
    Leads origin m a (b.asked call operation) := by
  obtain ⟨deadline, refusal, hasked⟩ := b.asked_eq call operation
  have hnames := operation.ne_of_mem_lowered
  have hjoined : .joined ∉ operation.lowered := fun hmem => (hnames _ hmem).2 rfl
  have hhandshake : .handshake ∉ operation.lowered := fun hmem => (hnames _ hmem).1 rfl
  have hlowered := h.lowerAll fun signal hmem => (hnames signal hmem).2
  have hask := hlowered.step
    (c := { session := _, told := b.told ++ [_] })
    (hstep _ (Latches.isRaised_foldl_lower _ hjoined) (Latches.isRaised_foldl_lower _ hhandshake)
      deadline refusal) rfl
  rw [hasked]
  exact hask.step (.aside ..) (List.append_nil _).symm

/-- An operation that finds the link open. -/
theorem operate (h : Leads origin m a b) {call : Nat} {operation : Operation}
    (hmove : m = .event (.call (.operate operation))) (hbegun : Begun origin b.session call)
    (hphase : b.session.phase ≠ .idle) (hsame : b.session.passphrase = origin.passphrase)
    (hsent : b.session.passphraseSent = origin.passphraseSent) :
    Leads origin m a (b.operate call operation) := by
  have hupdated :=
    h.updatePassphrase call hphase (.inl ⟨⟨operation, hmove⟩, hbegun.phase⟩) hsame
  have hupdate := session_updatePassphrase b call
  have hfirst (hfirst : operation.updatesFirst = true) :
      Leads origin m a ((b.updatePassphrase call).asked call operation) := by
    refine hupdated.asked call operation ?_
    rw [hupdate]
    intro latches hjoined _ deadline refusal
    refine .ask call operation deadline refusal hmove ?_ hphase hsame ?_
    · exact ⟨hbegun.number, hbegun.counted, hbegun.waiting, hbegun.phase,
        hjoined.trans hbegun.raised⟩
    · rw [hfirst]
      rfl
  have hasked (hnone : operation.updatesFirst = false) :
      Leads origin m a (b.asked call operation) := by
    refine h.asked call operation fun latches hjoined _ deadline refusal => ?_
    refine .ask call operation deadline refusal hmove ?_ hphase hsame ?_
    · exact ⟨hbegun.number, hbegun.counted, hbegun.waiting, hbegun.phase,
        hjoined.trans hbegun.raised⟩
    · rw [hnone]
      exact hsent
  rw [operate_eq]
  cases operation with
  | scan filter => exact hfirst rfl
  | createPrivate request advertised => exact hfirst rfl
  | connectPublic request => exact hasked rfl
  | connectPrivate request => exact hasked rfl
  | createPublic request advertised =>
    have hcreate := hasked rfl
    obtain ⟨deadline, refusal, heq⟩ := b.asked_eq call (.createPublic request advertised)
    rw [heq] at hcreate ⊢
    exact hcreate.updatePassphrase call hphase (.inl ⟨⟨_, hmove⟩, hbegun.phase⟩) hsame

/-- An operation after the handshake it waited for. -/
theorem operateAfter (h : Leads origin m a b) {w : Waiting} {operation : Operation}
    (hmove : m = .turn (.resume w.id)) (hwaiting : w ∈ origin.waiting)
    (hpause : w.pause = .handshake operation)
    (hended : b.session.waiting = origin.waiting.filter (·.id ≠ w.id))
    (hcalls : b.session.calls = origin.calls) (hphase : b.session.phase ≠ .idle)
    (hhandshake : b.session.latches.isRaised .handshake = true)
    (hraised : b.session.latches.isRaised .joined = origin.latches.isRaised .joined)
    (hsame : b.session.passphrase = origin.passphrase) :
    Leads origin m a ((b.updatePassphrase w.id).operate w.id operation) := by
  have hupdated := h.updatePassphrase w.id hphase (.inr ⟨hmove, hhandshake⟩) hsame
  have hupdate := session_updatePassphrase b w.id
  rw [operate_of_sent (by rw [hupdate])]
  refine hupdated.asked w.id operation ?_
  rw [hupdate]
  intro latches hjoined hgreeted deadline refusal
  exact .goOn w operation deadline refusal hmove hwaiting hpause hended hcalls hphase
    (hgreeted.trans hhandshake) (hjoined.trans hraised) hsame rfl

end Leads

end Act
end LocalPlay.Session
