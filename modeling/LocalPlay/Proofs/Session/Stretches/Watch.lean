import LocalPlay.Proofs.Session.Stretches.Moves

/-!
# What starts the idle countdown

The countdown is running, or has ended and the stop is under way, or neither. Hardly anything a
session does has to do with it: a scan outside of networks starts it, calls that are to end in a
network take it back, and time ends it. `watch` is the part of a session that is about the
countdown, and all other acts leave it as it is.

The acts are gone through in the order of their definitions, and `isCounting_of_move` is what the
rest needs of them.
-/

namespace LocalPlay.Session

open Net Wire Overlay Timing

/-- The countdown, and whether the stop it ends in is under way. -/
def watch (s : Session) : Countdown × Bool :=
  (s.idle, decide (.idleStop ∈ s.ready))

/-- The idle countdown is running, or its stop is under way. -/
def isCounting (s : Session) : Bool :=
  s.watch.1.deadline.isSome || s.watch.2

/-- This scan starts the idle countdown, since the session is in no network. -/
def startsCountdown (s : Session) : Move → Bool
  | .event (.call (.operate (.scan _))) => !s.inNetwork
  | _ => false

theorem isCounting_iff {s : Session} :
    s.isCounting = true ↔ s.idle.deadline.isSome = true ∨ .idleStop ∈ s.ready := by
  rw [isCounting, watch, Bool.or_eq_true, decide_eq_true_iff]

theorem isCounting_congr {s t : Session} (hwatch : t.watch = s.watch) :
    t.isCounting = s.isCounting := by
  rw [isCounting, hwatch, isCounting]

theorem watch_congr {s t : Session} (hidle : t.idle = s.idle)
    (hready : .idleStop ∈ t.ready ↔ .idleStop ∈ s.ready) : t.watch = s.watch := by
  rw [watch, watch, hidle, decide_eq_decide.mpr hready]

namespace Act

variable (a : Act)

theorem watch_wake {activity : Activity} (hactivity : activity ≠ .idleStop) :
    (a.wake activity).session.watch = a.session.watch := by
  rw [wake, update]
  dsimp only
  split
  · rfl
  · exact watch_congr rfl (by simp [hactivity.symm])

theorem watch_foldl_wake {α : Type} (activity : α → Activity) {xs : List α}
    (hactivity : ∀ x ∈ xs, activity x ≠ .idleStop) :
    (xs.foldl (fun a x => a.wake (activity x)) a).session.watch = a.session.watch := by
  induction xs generalizing a with
  | nil => rfl
  | cons x xs ih =>
    obtain ⟨hx, hxs⟩ := List.forall_mem_cons.mp hactivity
    rw [List.foldl_cons, ih _ hxs, watch_wake a hx]

theorem watch_raise (signal : Signal) : (a.raise signal).session.watch = a.session.watch :=
  watch_foldl_wake _ _ fun w _ => by simp

theorem watch_pause (call : Nat) (timeout : Option Nat) (pause : Pause) :
    (a.pause call timeout pause).session.watch = a.session.watch :=
  watch_congr rfl (by simp [Act.pause, update])

/-! ### The hosted proxy and networks -/

theorem watch_disposeHost : a.disposeHost.session.watch = a.session.watch := by
  rw [disposeHost]
  split
  · rfl
  · exact watch_congr rfl (by simp [update])

theorem watch_adopt (scene : Scene) : (a.adopt scene).session.watch = a.session.watch :=
  watch_foldl_wake _ _ fun job _ => by simp

theorem watch_atHost (f : Host → Scene) : (a.atHost f).session.watch = a.session.watch := by
  rw [atHost]
  split
  · exact a.watch_adopt _
  · rfl

theorem watch_hostProxy : a.hostProxy.session.watch = a.session.watch := by
  rw [hostProxy]
  split
  · exact a.watch_disposeHost
  · rfl

theorem watch_leave : a.leave.session.watch = a.session.watch := by
  rw [leave]
  split
  · exact watch_disposeHost _
  · rfl

theorem watch_close (receiver : Receiver) :
    (a.close receiver).session.watch = a.session.watch :=
  watch_leave _

theorem watch_stopReceiver (stopper : Stopper) :
    (a.stopReceiver stopper).2.session.watch = a.session.watch := by
  rw [stopReceiver]
  cases a.session.receiver with
  | listening => exact watch_wake _ (by simp)
  | _ => rfl

/-! ### Calls -/

theorem watch_asked (call : Nat) (operation : Operation) :
    (a.asked call operation).session.watch = a.session.watch := by
  obtain ⟨deadline, refusal, hasked⟩ := a.asked_eq call operation
  rw [hasked]
  exact watch_congr rfl (by simp)

theorem watch_updatePassphrase (call : Nat) :
    (a.updatePassphrase call).session.watch = a.session.watch := by
  rw [session_updatePassphrase]
  rfl

theorem watch_operate (call : Nat) (operation : Operation) :
    (a.operate call operation).session.watch = a.session.watch := by
  rw [operate_eq]
  cases operation with
  | scan filter => rw [watch_asked, watch_updatePassphrase]
  | createPublic request advertised => rw [watch_updatePassphrase, watch_asked]
  | createPrivate request advertised => rw [watch_asked, watch_updatePassphrase]
  | connectPublic request => rw [watch_asked]
  | connectPrivate request => rw [watch_asked]

theorem watch_openLink (call : Nat) (operation : Operation) :
    (a.openLink call operation).session.watch = a.session.watch := by
  obtain ⟨deadline, refusal, hopen⟩ := a.openLink_eq call operation
  rw [hopen]
  exact watch_congr rfl (by simp)

theorem watch_giveUp (call : Nat) (operation : Operation) :
    (a.giveUp call operation).session.watch = a.session.watch := by
  cases operation with
  | scan filter => rfl
  | createPublic request advertised => exact a.watch_disposeHost
  | createPrivate request advertised => exact a.watch_disposeHost
  | connectPublic request => rfl
  | connectPrivate request => rfl

/-- An operation sees to the countdown before all else. -/
theorem watch_beginOperation (call : Nat) (operation : Operation) :
    (a.beginOperation call operation).session.watch = (a.prepare operation).session.watch := by
  rw [beginOperation]
  split
  · exact watch_operate _ call operation
  · split
    · exact watch_giveUp _ call operation
    · exact watch_openLink _ call operation

theorem watch_beginStop (call : Nat) :
    (a.beginStop call).session.watch = a.session.watch := by
  have hstopped := a.watch_stopReceiver (.call call)
  rw [beginStop]
  split
  · rename_i hstop
    rw [hstop] at hstopped
    rw [watch_pause, hstopped]
  · rename_i hstop
    rw [hstop] at hstopped
    exact hstopped

theorem watch_sendTraffic (call : Nat) (traffic : Traffic) :
    (a.sendTraffic call traffic).session.watch = a.session.watch := by
  rw [sendTraffic]
  dsimp only
  split
  · rfl
  · split
    · rfl
    · rfl

theorem watch_postInNetwork (call : Nat) (packet : Packet) :
    (a.postInNetwork call packet).session.watch = a.session.watch := by
  rw [postInNetwork]
  split
  · rfl
  · rfl

theorem watch_awaitAddress (call : Nat) (outcome : Outcome) :
    (a.awaitAddress call outcome).session.watch = a.session.watch := by
  rw [awaitAddress]
  split
  · exact watch_pause ..
  · rfl

theorem watch_goOn (call : Nat) (index : Option Nat) (pause : Pause) :
    (a.goOn call index pause).session.watch = a.session.watch := by
  cases pause with
  | handshake operation =>
    rw [goOn]
    split
    · rw [watch_operate, watch_updatePassphrase]
    · exact watch_giveUp _ call operation
  | scanReplies => rfl
  | confirmation =>
    have hallowed : (if a.session.p2p then a else a.disposeHost).session.watch =
        a.session.watch := by
      split
      · rfl
      · exact a.watch_disposeHost
    rw [goOn]
    split
    · rw [watch_awaitAddress, hallowed]
    · exact (watch_disposeHost _).trans hallowed
  | joinReply =>
    rw [goOn]
    dsimp only
    split
    · rfl
    · split
      · rfl
      · exact watch_awaitAddress ..
  | rejectReply => rfl
  | address guest arrived outcome => rfl
  | cleanup ended => rfl

theorem watch_resume (call : Nat) : (a.resume call).session.watch = a.session.watch := by
  rw [resume]
  split
  · rfl
  · dsimp only
    split
    · split
      · rfl
      · rfl
    · split
      · rfl
      · rfl
    · split
      · exact watch_goOn ..
      · exact watch_goOn ..
      · rfl

/-! ### Packets and the end of the receive loop -/

theorem watch_joinProxy (offer : ProxyOffer) :
    (a.joinProxy offer).session.watch = a.session.watch := by
  rw [joinProxy]
  split
  · rfl
  · dsimp only
    split
    · exact watch_leave _
    · rfl

theorem watch_acceptOverlay (config : OverlayConfig) :
    (a.acceptOverlay config).session.watch = a.session.watch := by
  rw [acceptOverlay]
  split
  · exact watch_foldl_wake _ _ fun w _ => by simp
  · rfl

theorem watch_handle (sender : Endpoint) (packet : Packet) :
    (a.handle sender packet).session.watch = a.session.watch := by
  cases packet with
  | hello identity => exact watch_raise _ _
  | connected info => exact watch_raise _ _
  | rejectReply => exact watch_raise _ _
  | disconnect ip => exact watch_leave _
  | scanEnd => exact watch_raise _ _
  | proxyOffer offer =>
    show (if _ then _ else _ : Act).session.watch = _
    split
    · exact watch_joinProxy _ offer
    · exact watch_atHost _ _
  | proxyToken token => exact watch_atHost _ _
  | proxyState presence => exact watch_atHost _ _
  | overlayConfig config => exact watch_acceptOverlay _ config
  | ping ping =>
    show (if ping.requester = 0 then _ else _ : Act).session.watch = _
    split
    · rfl
    · rfl
  | networkError error =>
    cases error with
    | portUnreachable => rfl
    | _ => exact watch_raise _ _
  | _ => rfl

theorem watch_foldl_handle (sender : Endpoint) (packets : List Packet) :
    (packets.foldl (fun a packet => a.handle sender packet) a).session.watch =
      a.session.watch := by
  induction packets generalizing a with
  | nil => rfl
  | cons packet packets ih => rw [List.foldl_cons, ih, watch_handle]

theorem watch_receive (sender : Endpoint) (datagram : Bytes) :
    (a.receive sender datagram).session.watch = a.session.watch := by
  rcases a.receive_cases sender datagram with ⟨host, -, hreceive⟩ | hreceive
  · rw [hreceive, watch_adopt]
  · rw [hreceive, watch_foldl_handle]
    rfl

theorem watch_receiveFailed (error : IoError) :
    (a.receiveFailed error).session.watch = a.session.watch := by
  rw [receiveFailed]
  split
  · exact a.watch_close _
  · exact a.watch_raise _
  · exact a.watch_raise _

theorem watch_cleanup : a.cleanup.session.watch = a.session.watch := by
  rw [cleanup]
  split
  · dsimp only
    split
    · exact a.watch_close _
    · exact (watch_wake _ (by simp)).trans (a.watch_close _)
  · rfl

theorem watch_perform (activity : Activity) :
    (a.perform activity).session.watch = a.session.watch := by
  cases activity with
  | resume call => exact a.watch_resume call
  | cleanup => exact a.watch_cleanup
  | idleStop => exact a.watch_stopReceiver _
  | host job => exact a.watch_atHost _

end Act

/-! ### Moves -/

theorem idleStop_mem_of_disabled {s t : Session}
    (hwatch : t.watch = (s.idle.disable, decide (.idleStop ∈ s.ready)))
    (hcounting : t.isCounting = true) : .idleStop ∈ s.ready := by
  rw [isCounting, hwatch] at hcounting
  exact of_decide_eq_true hcounting

/-- Calls that are to end in a network take the countdown back, but not the stop it has ended in. -/
theorem idleStop_mem_of_join {s : Session} {operation : Operation} (hjoins : operation.joins = true)
    (hcounting : (s.move (.event (.call (.operate operation)))).session.isCounting = true) :
    .idleStop ∈ s.ready := by
  refine idleStop_mem_of_disabled ((Act.watch_beginOperation _ s.calls operation).trans ?_) hcounting
  cases operation with
  | scan filter => exact absurd hjoins Bool.false_ne_true
  | createPublic request advertised => exact Act.watch_hostProxy _
  | createPrivate request advertised => exact Act.watch_hostProxy _
  | connectPublic request => rfl
  | connectPrivate request => rfl

/-- A scan in a network leaves the countdown alone. -/
theorem watch_scan_of_inNetwork {s : Session} {filter : ScanFilter} (hnetwork : s.inNetwork = true) :
    (s.move (.event (.call (.operate (.scan filter))))).session.watch = s.watch := by
  refine (Act.watch_beginOperation _ s.calls _).trans ?_
  rw [Act.prepare, if_pos (by exact hnetwork)]
  rfl

/-- Time ends the countdown, but starts none. -/
theorem isCounting_of_reach {s : Session} {time : Nat}
    (hcounting : (s.reach time).isCounting = true) : s.isCounting = true := by
  cases hover : s.idle.isOver time with
  | true =>
    -- What is over has been running.
    refine isCounting_iff.mpr (.inl ?_)
    cases hdeadline : s.idle.deadline with
    | none => simp [Countdown.isOver, hdeadline] at hover
    | some deadline => rfl
  | false =>
    have hreach : s.idle.reach time = (false, s.idle) := by
      rw [Countdown.reach, hover]
      exact if_neg Bool.false_ne_true
    have hwatch : (s.reach time).watch = s.watch := by
      rw [reach, hreach]
      refine (Act.watch_foldl_wake _ id ?_).trans rfl
      intro activity hmem
      simp only [Bool.false_eq_true, if_false, List.append_nil, List.mem_append,
        List.mem_map] at hmem
      rcases hmem with ⟨w, -, rfl⟩ | ⟨job, -, rfl⟩
      · simp
      · simp
    rwa [isCounting_congr hwatch] at hcounting

theorem isCounting_of_turn {s : Session} {activity : Activity}
    (hcounting : (s.move (.turn activity)).session.isCounting = true) : s.isCounting = true := by
  rw [move] at hcounting
  split at hcounting
  · rw [isCounting_congr (Act.watch_perform _ activity), isCounting_iff] at hcounting
    exact isCounting_iff.mpr (hcounting.imp id List.mem_of_mem_erase)
  · exact hcounting

theorem isCounting_of_call {s : Session} {call : Call}
    (hcounting : (s.move (.event (.call call))).session.isCounting = true) :
    s.isCounting = true ∨ s.startsCountdown (.event (.call call)) = true := by
  have hsame (hwatch : (s.move (.event (.call call))).session.watch = s.watch) :
      s.isCounting = true ∨ s.startsCountdown (.event (.call call)) = true := by
    rw [isCounting_congr hwatch] at hcounting
    exact .inl hcounting
  cases call with
  | operate operation =>
    cases operation with
    | scan filter =>
      cases hnetwork : s.inNetwork with
      | false => exact .inr (by rw [startsCountdown, hnetwork]; rfl)
      | true => exact hsame (watch_scan_of_inNetwork hnetwork)
    | _ => exact .inl (isCounting_iff.mpr (.inr (idleStop_mem_of_join rfl hcounting)))
  | leaveAndStop =>
    have hbegin : (s.move (.event (.call .leaveAndStop))).session.watch = _ :=
      Act.watch_beginStop (({ session := { s with calls := s.calls + 1 } } : Act).update fun s =>
        { s with idle := s.idle.disable }) s.calls
    exact .inl (isCounting_iff.mpr (.inr (idleStop_mem_of_disabled hbegin hcounting)))
  | reject removal =>
    refine hsame ?_
    show (Act.begin _ s.calls _).session.watch = _
    rw [Act.begin]
    split
    · exact Act.watch_pause ..
    · rfl
  | setAdvertiseData data => exact hsame (Act.watch_postInNetwork ..)
  | setJoinPolicy policy => exact hsame (Act.watch_postInNetwork ..)
  | leaveNetwork =>
    exact hsame ((Act.watch_leave _).trans (Act.watch_postInNetwork ..))
  | stop => exact hsame (Act.watch_beginStop _ s.calls)
  | sendTraffic traffic => exact hsame (Act.watch_sendTraffic ..)

/-- Where the countdown is running it was running before, or a scan starts it. -/
theorem isCounting_of_move {s : Session} {m : Move}
    (hcounting : (s.move m).session.isCounting = true) :
    s.isCounting = true ∨ s.startsCountdown m = true := by
  have hsame (hwatch : (s.move m).session.watch = s.watch) :
      s.isCounting = true ∨ s.startsCountdown m = true := by
    rw [isCounting_congr hwatch] at hcounting
    exact .inl hcounting
  cases m with
  | reach time => exact .inl (isCounting_of_reach hcounting)
  | turn activity => exact .inl (isCounting_of_turn hcounting)
  | event event =>
    cases event with
    | call call => exact isCounting_of_call hcounting
    | datagram sender bytes =>
      refine hsame ?_
      rw [move, happen]
      split
      · exact Act.watch_receive ..
      · rfl
    | receiveError error =>
      refine hsame ?_
      rw [move, happen]
      split
      · exact Act.watch_receiveFailed ..
      · rfl
    | setPassphrase text =>
      refine hsame ?_
      rw [move, happen]
      split
      · rfl
      · rfl
    | setGameVersion version => exact hsame rfl
    | setOpenFault error => exact hsame rfl
    | setFault target error => exact hsame rfl

end LocalPlay.Session
