import LocalPlay.Proofs.Session.Stretches.Calls

/-!
# Every move is a sequence of steps
-/

namespace LocalPlay.Session

open Net Wire Overlay Timing

variable {origin : Session} {m : Move}

/-! ### Packets and the end of the receive loop -/

namespace Waiting

/-- The host of this guest has assigned an address. -/
def assigned (membership : Nat) (config : OverlayConfig) (w : Waiting) : Waiting :=
  match w.pause with
  | .address guest arrived outcome =>
    let arrived := if guest = membership then some config else arrived
    { w with pause := .address guest arrived outcome }
  | _ => w

/-- The receive loop has ended that this call waits for. -/
def released (call : Nat) (w : Waiting) : Waiting :=
  match w.pause with
  | .cleanup _ => if w.id = call then { w with pause := .cleanup true } else w
  | _ => w

variable (w : Waiting)

theorem id_assigned (membership : Nat) (config : OverlayConfig) :
    (w.assigned membership config).id = w.id := by
  rw [assigned]
  split
  · rfl
  · rfl

theorem plan_assigned (membership : Nat) (config : OverlayConfig) :
    (w.assigned membership config).pause.plan = w.pause.plan := by
  rw [assigned]
  split
  · rename_i hpause
    rw [hpause]
    rfl
  · rfl

theorem id_released (call : Nat) : (w.released call).id = w.id := by
  rw [released]
  split
  · split
    · rfl
    · rfl
  · rfl

theorem plan_released (call : Nat) : (w.released call).pause.plan = w.pause.plan := by
  rw [released]
  split
  · rename_i hpause
    split
    · rw [hpause]
      rfl
    · rfl
  · rfl

end Waiting

/-- The link stays open while a datagram is handled. -/
theorem Steps.phase_ne_idle {sender : Endpoint} {bytes : Bytes} {s t : Session}
    {told : List Notice} (h : Steps origin (.event (.datagram sender bytes)) s t told)
    (hphase : s.phase ≠ .idle) : t.phase ≠ .idle := by
  induction h with
  | refl => exact hphase
  | tail hsteps hstep ih =>
    cases hstep with
    | openLink => exact nofun
    | greet => exact nofun
    | closeLink receiver hmove =>
      rcases hmove with hmove | ⟨error, hmove⟩
      · exact nomatch hmove
      · exact nomatch hmove
    | _ => exact ih

namespace Act
namespace Leads

variable {a b : Act}

theorem joinProxy (h : Leads origin m a b) (offer : ProxyOffer)
    (hmove : ∃ sender bytes, m = .event (.datagram sender bytes)) :
    Leads origin m a (b.joinProxy offer) := by
  rw [Act.joinProxy]
  split
  · exact h
  · rename_i ip _
    have hguest := h.update (f := fun s => { s with
      membership := some ⟨s.offers, { endpoint := { ip, port := offer.port } }⟩ })
      (.accompany _ hmove)
    have hcounted := hguest.update (f := fun s => { s with offers := s.offers + 1 }) (.aside ..)
    have hoffered := hcounted.post none (b.session.targetOf { ip, port := offer.port })
      (rfl : isOperational (.proxyOffer offer) = false)
    dsimp only
    split
    · obtain ⟨sender, bytes, rfl⟩ := hmove
      exact hoffered.leave (by simp)
    · exact hoffered

theorem acceptOverlay (h : Leads origin m a b) (config : OverlayConfig)
    (hmove : ∃ sender bytes, m = .event (.datagram sender bytes)) :
    Leads origin m a (b.acceptOverlay config) := by
  rw [Act.acceptOverlay]
  split
  · rename_i membership _
    have hassigned := h.update (f := fun s => { s with
      membership := some { membership with guest := membership.guest.assign config } })
      (.accompany _ hmove)
    have hinformed := hassigned.update (f := fun s => { s with
      waiting := s.waiting.map (·.assigned membership.id config) })
      (.inform _ (fun w => w.id_assigned ..) fun w => w.plan_assigned ..)
    exact (hinformed.foldl _ fun _ _ _ h => h.wake _).post _ _ rfl
  · exact ((h.update (.aside ..)).post _ _ rfl).tell rfl

theorem atHost (h : Leads origin m a b) (f : Host → Scene) : Leads origin m a (b.atHost f) := by
  rw [Act.atHost]
  split
  · rename_i host hhost
    exact h.adopt hhost _
  · exact h

theorem greet (h : Leads origin m a b) (sender : Endpoint) (identity : Identity)
    (hphase : b.session.phase ≠ .idle) : Leads origin m a (b.handle sender (.hello identity)) :=
  (h.step (c := { session := _, told := b.told ++ [.handled sender (.hello identity)] })
    (.greet sender identity hphase) rfl).foldl _ fun _ _ _ h => h.wake _

theorem join (h : Leads origin m a b) {sender : Endpoint} (info : NetworkInfo)
    (hmove : ∃ bytes, m = .event (.datagram sender bytes)) :
    Leads origin m a (b.handle sender (.connected info)) := by
  have hjoined := h.step (c := { session := _, told := b.told ++ [_, _] })
    (.join sender info hmove) rfl
  obtain ⟨ready, hwake⟩ := foldl_wake_eq (fun w : Waiting => .resume w.id)
    (b.session.waiting.filter (Signal.joined ∈ ·.pause.awaited))
    { session := _, told := b.told ++ [.handled sender (.connected info)] }
  have hhandle : b.handle sender (.connected info) = _ :=
    congrArg (Act.tell · (.changed (.arrived info))) hwake
  rw [hhandle]
  exact hjoined.step (.aside ..) (by simp [Act.tell])

theorem handle (h : Leads origin m a b) {sender : Endpoint} (packet : Packet)
    (hmove : ∃ bytes, m = .event (.datagram sender bytes)) (hphase : b.session.phase ≠ .idle) :
    Leads origin m a (b.handle sender packet) := by
  have htold (hpacket : isSteering packet = false) :
      Leads origin m a (b.tell (.handled sender packet)) := by
    refine h.tell ?_
    rw [Notice.isIncidental, hpacket]
    rfl
  cases packet with
  | hello identity => exact h.greet sender identity hphase
  | connected info => exact h.join info hmove
  | syncNetwork info =>
    refine h.step (.syncNetwork sender info (b.session.link .relay (.syncNetwork info))) ?_
    rw [List.append_cons, List.append_cons]
    rfl
  | reject removal => exact h.step (.reject sender removal) rfl
  | rejectReply => exact (htold rfl).raise (by simp)
  | disconnect ip =>
    obtain ⟨bytes, rfl⟩ := hmove
    exact (htold rfl).leave (by simp)
  | scanReply info => exact (htold rfl).step (.aside ..) (List.append_nil _).symm
  | scanEnd => exact (htold rfl).raise (by simp)
  | proxyOffer offer =>
    show Leads origin m a (if _ then _ else _)
    split
    · exact (htold rfl).joinProxy offer ⟨sender, hmove⟩
    · exact (htold rfl).atHost _
  | proxyToken token => exact (htold rfl).atHost _
  | proxyState presence => exact (htold rfl).atHost _
  | overlayConfig config => exact (htold rfl).acceptOverlay config ⟨sender, hmove⟩
  | ping ping =>
    show Leads origin m a (if ping.requester = 0 then _ else _)
    split
    · exact (htold rfl).post none .relay rfl
    · exact htold rfl
  | networkError error =>
    have herror := (htold rfl).update (f := fun s => { s with lastError := error }) (.aside ..)
    cases error with
    | portUnreachable => exact (htold rfl).step (.aside ..) (List.append_nil _).symm
    | _ => exact herror.raise (by simp)
  | proxyConnect addressing => exact (htold rfl).tell rfl
  | proxyConnectReply addressing => exact (htold rfl).tell rfl
  | proxyData header data => exact (htold rfl).tell rfl
  | proxyDisconnect closure => exact (htold rfl).tell rfl
  | _ => exact htold rfl

theorem receive (h : Leads origin m a b) {sender : Endpoint} {bytes : Bytes}
    (hmove : m = .event (.datagram sender bytes)) (hphase : b.session.phase ≠ .idle) :
    Leads origin m a (b.receive sender bytes) := by
  rcases b.receive_cases sender bytes with ⟨host, hhost, hreceive⟩ | hreceive
  · rw [hreceive]
    exact h.adopt hhost _
  · rw [hreceive]
    generalize reassemble b.session.streams sender (bytes.take receiveLimit) = result
    obtain ⟨packets, streams⟩ := result
    have hstreams : Leads origin m b (b.update fun s => { s with streams }) :=
      (refl b).update (.aside ..)
    -- The link is open at the first packet, and handling packets keeps it open.
    have hhandled : Leads origin m b (packets.foldl (fun c packet => c.handle sender packet)
        (b.update fun s => { s with streams })) := by
      refine hstreams.foldl packets fun c packet _ hc => ?_
      obtain ⟨told, -, hsteps⟩ := id hc
      rw [hmove] at hsteps
      exact hc.handle packet ⟨bytes, hmove⟩ (hsteps.phase_ne_idle hphase)
    exact h.trans hhandled

theorem receiveFailed (h : Leads origin m a b) {error : IoError}
    (hmove : m = .event (.receiveError error)) : Leads origin m a (b.receiveFailed error) := by
  rw [Act.receiveFailed]
  cases error.severity with
  | unrecoverable => exact h.close (.inr ⟨error, hmove⟩) _
  | recoverable => exact h.raise (by simp)
  | datagramLost => exact h.raise (by simp)

theorem cleanup (h : Leads origin m a b) (hmove : m = .turn .cleanup) :
    Leads origin m a b.cleanup := by
  rw [Act.cleanup]
  split
  · have hclosed := h.close (.inl hmove) .absent
    dsimp only
    split
    · exact hclosed
    · rename_i call _
      have hinformed := hclosed.update (f := fun s => { s with
        waiting := s.waiting.map (·.released call) })
        (.inform _ (fun w => w.id_released ..) fun w => w.plan_released ..)
      exact hinformed.wake _
  · exact h

end Leads
end Act

/-! ### Moves -/

theorem leads_reach (s : Session) (time : Nat) (m : Move) :
    Act.Leads s m { session := s } { session := s.reach time } := by
  obtain ⟨ready, hwake⟩ : ∃ ready, s.reach time =
      { s with clock := time, idle := (s.idle.reach time).2, ready } := by
    obtain ⟨ready, hwake⟩ := Act.foldl_wake_eq id
      (((s.waiting.filter (·.deadline.any (· ≤ time))).map fun w => .resume w.id) ++
        (s.hosted.toList.flatMap (·.overdue time)).map .host ++
        if (s.idle.reach time).1 then [.idleStop] else [])
      { session := { s with clock := time, idle := (s.idle.reach time).2 } }
    exact ⟨ready, congrArg Act.session hwake⟩
  rw [hwake]
  exact (Act.Leads.refl _).step (.aside ..) rfl

/-- Every move is a sequence of steps. -/
theorem leads_move (s : Session) (m : Move) : Act.Leads s m { session := s } (s.move m) := by
  have hstart : Act.Leads s m { session := s } { session := s } := .refl _
  cases m with
  | reach time => exact leads_reach s time _
  | turn activity =>
    rw [move]
    split
    · have hturn := hstart.step (c := { session := { s with ready := s.ready.erase activity } })
        (.aside ..) rfl
      cases activity with
      | resume call => exact hturn.resume rfl ⟨rfl, rfl, rfl, rfl⟩
      | cleanup => exact hturn.cleanup rfl
      | idleStop => exact hturn.stopReceiver _
      | host job => exact hturn.atHost _
    · exact hstart
  | event event =>
    cases event with
    | call call =>
      have hcall := hstart.step (c := { session := { s with calls := s.calls + 1 } })
        (.count ⟨call, rfl⟩ rfl) rfl
      exact hcall.begin rfl ⟨rfl, rfl, rfl, rfl, rfl⟩ rfl rfl
    | datagram sender bytes =>
      rw [move, happen]
      split
      · rename_i hlistening
        have hopen := (decide_eq_true_eq.mp hlistening).1
        exact hstart.receive rfl hopen
      · exact hstart
    | receiveError error =>
      rw [move, happen]
      split
      · exact hstart.receiveFailed rfl
      · exact hstart
    | setPassphrase text =>
      rw [move, happen]
      split
      · rename_i hfits
        exact hstart.step (.setPassphrase text rfl hfits) rfl
      · exact hstart
    | setGameVersion version => exact hstart.step (.aside ..) rfl
    | setOpenFault error => exact hstart.step (.aside ..) rfl
    | setFault target error => exact hstart.step (.aside ..) rfl

theorem steps_move (s : Session) (m : Move) :
    Steps s m s (s.move m).session (s.move m).told := by
  obtain ⟨told, htold, hsteps⟩ := leads_move s m
  rw [htold]
  exact hsteps

end LocalPlay.Session
