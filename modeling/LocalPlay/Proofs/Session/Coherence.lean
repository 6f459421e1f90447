import LocalPlay.Proofs.Session.Confirmation
import LocalPlay.Proofs.Session.Hosting

/-!
# What the fields of a session say together

Whether the link is open is to be seen from several fields of a session, and so is whether it is in
a network. They are changed by calls, packets and the end of the receive loop, and `Coherent` says
how they agree: wherever nothing is half done the session is idle just if no transport is open, an
idle session is in no network and has told no passphrase, and a confirmation that nobody has taken
yet is of the network the session is in.

A call succeeds in the turn in which it takes a confirmation, unless the session is a guest then. No
turn of a call changes whether the session is in a network, so such a call returns in one. A guest's
call waits for its address first, and much may happen meanwhile.
-/

namespace LocalPlay.Session

open Net Wire Overlay Timing

structure Coherent (s : Session) : Prop where
  idle_iff : s.phase = .idle ↔ s.transportOpen = false
  unsent : s.phase = .idle → s.passphraseSent = none
  outside : s.phase = .idle → s.inNetwork = false
  confirmed : s.latches.isRaised .joined = true → s.inNetwork = true

variable {origin s t : Session} {m : Move} {told more : List Notice} {call : Nat} {outcome : Outcome}

/-! ### Steps and stages -/

theorem Step.unsent (h : Step origin m s t more)
    (hs : s.phase = .idle → s.passphraseSent = none) :
    t.phase = .idle → t.passphraseSent = none := by
  cases h with
  | openLink => exact nofun
  | closeLink => exact fun _ => rfl
  | updatePassphrase _ _ hphase => exact fun hidle => absurd hidle hphase
  | greet => exact nofun
  | _ => exact hs

theorem Step.coherent (h : Step origin m s t more) (hs : s.Coherent)
    (hopen : ∀ sender bytes, m = .event (.datagram sender bytes) → s.phase ≠ .idle) :
    t.Coherent := by
  have hunsent := h.unsent hs.unsent
  have hconfirmed := h.inNetwork_of_raised hs.confirmed
  cases h with
  | openLink => exact ⟨by simp, hunsent, nofun, hconfirmed⟩
  | closeLink _ _ hnetwork => exact ⟨by simp, hunsent, fun _ => hnetwork, hconfirmed⟩
  | greet _ _ hphase =>
    have hclosed : s.transportOpen ≠ false := fun hclosed => hphase (hs.idle_iff.mpr hclosed)
    exact ⟨by simp [hclosed], hunsent, nofun, hconfirmed⟩
  | join sender _ hmove =>
    obtain ⟨bytes, hmove⟩ := hmove
    exact ⟨hs.idle_iff, hunsent, fun hidle => absurd hidle (hopen sender bytes hmove), hconfirmed⟩
  | leave => exact ⟨hs.idle_iff, hunsent, fun _ => rfl, hconfirmed⟩
  | _ => exact ⟨hs.idle_iff, hunsent, hs.outside, hconfirmed⟩

theorem Steps.coherent (h : Steps origin m s t told) (hs : s.Coherent)
    (hopen : ∀ sender bytes, m = .event (.datagram sender bytes) → s.phase ≠ .idle) :
    t.Coherent := by
  induction h with
  | refl => exact hs
  | tail hsteps hstep ih =>
    refine hstep.coherent ih fun sender bytes hmove => ?_
    subst hmove
    exact hsteps.phase_ne_idle (hopen sender bytes rfl)

theorem Stage.coherent {a b : Act} (h : s.Stage m a b) (ha : a.session.Coherent) :
    b.session.Coherent := by
  have hleads := h.leads
  cases h with
  | whole hopened =>
    obtain ⟨told, -, hsteps⟩ := hleads
    by_cases hdatagram : ∃ sender bytes, m = .event (.datagram sender bytes)
    · -- It is not read here, so no packet in it can join a network.
      obtain ⟨sender, bytes, rfl⟩ := hdatagram
      obtain ⟨hosted, ready, notices, hmove⟩ := move_of_not_opened hopened
      rw [hmove]
      exact ⟨ha.idle_iff, ha.unsent, ha.outside, ha.confirmed⟩
    · exact hsteps.coherent ha fun sender bytes hmove => absurd ⟨sender, bytes, hmove⟩ hdatagram
  | reorder streams => exact ⟨ha.idle_iff, ha.unsent, ha.outside, ha.confirmed⟩
  | packet packet hmove hphase =>
    obtain ⟨told, -, hsteps⟩ := hleads
    exact hsteps.coherent ha fun _ _ _ => hphase

/-- Where the session is idle the next stage handles no packet. -/
theorem Stage.not_handled {a b : Act} (h : s.Stage m a b) (hidle : a.session.phase = .idle) :
    ∃ more, b.told = a.told ++ more ∧ ∀ sender packet, .handled sender packet ∉ more := by
  cases h with
  | whole hopened =>
    exact ⟨(s.move m).told, rfl, fun sender packet =>
      not_handled_of_not_opened hopened sender packet⟩
  | reorder streams => exact ⟨[], rfl, fun _ _ => List.not_mem_nil⟩
  | packet packet hmove hphase => exact absurd hidle hphase

/-! ### Traffic -/

/-- Traffic is refused for want of a link just if the session is idle. -/
theorem notStarted_iff (s : Session) (traffic : Traffic) :
    .finished s.calls (.failed .notStarted) ∈
        (s.move (.event (.call (.sendTraffic traffic)))).told ↔ s.phase = .idle := by
  show _ ∈ (Act.sendTraffic { session := { s with calls := s.calls + 1 } } s.calls traffic).told ↔ _
  rw [Act.sendTraffic]
  dsimp only
  split
  · rename_i hidle
    simp [hidle, Act.finish, Act.tell]
  · rename_i hlinked
    split
    · rename_i membership _
      cases link { s with calls := s.calls + 1 } (targetOf _ membership.guest.endpoint)
        traffic.toPacket with
      | _ => simp [hlinked, Act.finish, Act.post, Act.tell]
    · cases link { s with calls := s.calls + 1 } .relay traffic.toPacket with
      | _ => simp [hlinked, Act.finish, Act.post, Act.tell]

/-! ### Calls that succeed -/

/-- What a call comes to that waits for nothing but its address. -/
def Pause.promised? : Pause → Option Outcome
  | address _ _ outcome => some outcome
  | _ => none

theorem Pause.promised?_plan (pause : Pause) : pause.plan.promised? = pause.promised? := by
  cases pause with
  | _ => rfl

theorem Pause.promised?_of_not_joins {pause : Pause} (hjoins : pause.joins = false) :
    pause.promised? = none := by
  cases pause with
  | address guest arrived outcome => exact nomatch hjoins
  | _ => rfl

theorem Pause.isJoined_of_confirmed? {pause : Pause} {outcome : Outcome}
    (hconfirmed : pause.confirmed? = some outcome) : outcome.isJoined = true := by
  cases pause with
  | confirmation =>
    obtain rfl := Option.some.inj hconfirmed
    rfl
  | joinReply =>
    obtain rfl := Option.some.inj hconfirmed
    rfl
  | _ => exact nomatch hconfirmed

theorem Operation.promised?_pause (operation : Operation) : operation.pause.promised? = none := by
  cases operation with
  | _ => rfl

/-- A turn of a call neither joins nor leaves a network, and makes the session nobody's guest. -/
theorem Step.still (h : Step origin m s t more) (hmove : m = .turn (.resume call)) :
    t.inNetwork = s.inNetwork ∧ t.membership = s.membership := by
  cases h with
  | accompany membership hdatagram =>
    obtain ⟨sender, bytes, hdatagram⟩ := hdatagram
    exact nomatch hmove.symm.trans hdatagram
  | join sender info hdatagram =>
    obtain ⟨bytes, hdatagram⟩ := hdatagram
    exact nomatch hmove.symm.trans hdatagram
  | leave hnetwork hhosted hother => exact absurd hmove (hother call)
  | _ => exact ⟨rfl, rfl⟩

theorem Steps.still (h : Steps origin m s t told) (hmove : m = .turn (.resume call)) :
    t.inNetwork = s.inNetwork ∧ t.membership = s.membership := by
  induction h with
  | refl => exact ⟨rfl, rfl⟩
  | tail _ hstep ih =>
    obtain ⟨hnetwork, hguest⟩ := hstep.still hmove
    exact ⟨hnetwork.trans ih.1, hguest.trans ih.2⟩

/-- A call succeeds that was promised it, or that takes a confirmation while the session is no
guest. -/
theorem Step.of_success (h : Step origin m s t more) (hfinished : .finished call outcome ∈ more)
    (hjoined : outcome.isJoined = true) : m = .turn (.resume call) ∧
      ((∃ w ∈ origin.waiting, w.id = call ∧ w.pause.promised? = some outcome) ∨
        s.membership = none ∧ s.latches.isRaised .joined = true) := by
  cases h with
  | say notice hnotice =>
    obtain rfl := List.mem_singleton.mp hfinished
    rw [Notice.isIncidental, hjoined] at hnotice
    exact absurd hnotice Bool.false_ne_true
  | confirm w result hmove hwaiting hpause hraised hguest =>
    obtain ⟨rfl, rfl⟩ := Notice.finished.inj (List.mem_singleton.mp hfinished)
    exact ⟨hmove, .inr ⟨hguest, hraised⟩⟩
  | settle w guest arrived result hmove hwaiting hpause hbefore =>
    obtain ⟨rfl, rfl⟩ := Notice.finished.inj (List.mem_singleton.mp hfinished)
    exact ⟨hmove, .inl ⟨w, hbefore, rfl, by rw [hpause]; rfl⟩⟩
  | _ => simp at hfinished

/-- A call is promised its success that takes a confirmation while the session is a guest. -/
theorem Step.of_promised (h : Step origin m s t more) {w : Waiting} (hw : w ∈ t.waiting)
    (hpromised : w.pause.promised? = some outcome) :
    (∃ v ∈ s.waiting, v.id = w.id ∧ v.pause.promised? = some outcome) ∨
      m = .turn (.resume w.id) ∧ s.membership.isSome = true ∧
        s.latches.isRaised .joined = true ∧ outcome.isJoined = true := by
  have hold (hw : w ∈ s.waiting) :
      ∃ v ∈ s.waiting, v.id = w.id ∧ v.pause.promised? = some outcome := ⟨w, hw, rfl, hpromised⟩
  have hnew {call : Nat} {deadline : Option Nat} {pause : Pause}
      (hw : w ∈ s.waiting ++ [⟨call, deadline, pause⟩]) (hnone : pause.promised? = none) :
      ∃ v ∈ s.waiting, v.id = w.id ∧ v.pause.promised? = some outcome := by
    rcases List.mem_append.mp hw with hw | hw
    · exact hold hw
    · obtain rfl := List.mem_singleton.mp hw
      exact nomatch hnone.symm.trans hpromised
  cases h with
  | inform f hcall hplan =>
    obtain ⟨v, hv, rfl⟩ := List.mem_map.mp hw
    refine .inl ⟨v, hv, (hcall v).symm, ?_⟩
    rwa [← Pause.promised?_plan, ← hplan, Pause.promised?_plan]
  | openLink => exact .inl (hnew hw rfl)
  | ask call operation => exact .inl (hnew hw operation.promised?_pause)
  | goOn w' operation => exact .inl (hnew hw operation.promised?_pause)
  | wait call deadline pause hmove hbegun hjoins =>
    exact .inl (hnew hw (Pause.promised?_of_not_joins hjoins))
  | giveUp => exact .inl (hold (List.mem_filter.mp hw).1)
  | waste => exact .inl (hold (List.mem_filter.mp hw).1)
  | confirm => exact .inl (hold (List.mem_filter.mp hw).1)
  | settle => exact .inl (hold (List.mem_filter.mp hw).1)
  | confirmGuest v result deadline guest arrived hmove hwaiting hpause hraised hguest =>
    rcases List.mem_append.mp hw with hw | hw
    · exact .inl (hold (List.mem_filter.mp hw).1)
    · obtain rfl := List.mem_singleton.mp hw
      obtain rfl := Option.some.inj hpromised
      exact .inr ⟨hmove, hguest, hraised, Pause.isJoined_of_confirmed? hpause⟩
  | _ => exact .inl (hold hw)

theorem Steps.of_promised (h : Steps origin m s t told) (hs : s.Coherent) {w : Waiting}
    (hw : w ∈ t.waiting) (hpromised : w.pause.promised? = some outcome) :
    (∃ v ∈ s.waiting, v.id = w.id ∧ v.pause.promised? = some outcome) ∨
      m = .turn (.resume w.id) ∧ s.membership.isSome = true ∧ s.inNetwork = true ∧
        outcome.isJoined = true := by
  induction h generalizing w with
  | refl => exact .inl ⟨w, hw, rfl, hpromised⟩
  | tail hsteps hstep ih =>
    rcases hstep.of_promised hw hpromised with
      ⟨v, hv, hid, hpromised⟩ | ⟨hmove, hguest, hraised, hjoined⟩
    · rw [← hid]
      exact ih hv hpromised
    · obtain ⟨hnetwork, hmembership⟩ := hsteps.still hmove
      rw [hmembership] at hguest
      exact .inr ⟨hmove, hguest, hnetwork ▸ hsteps.inNetwork_of_raised hs.confirmed hraised,
        hjoined⟩

/-- A turn of the call came in a network and as a guest there, and after it the call waits for its
address. -/
def ConfirmedAsGuest (s : Session) (moves : List Move) (call : Nat) (outcome : Outcome) : Prop :=
  ∃ early, early ++ [.turn (.resume call)] <+: moves ∧
    (s.after early).session.inNetwork = true ∧
    (s.after early).session.membership.isSome = true ∧
    ∃ w ∈ (s.after (early ++ [.turn (.resume call)])).session.waiting,
      w.id = call ∧ w.pause.promised? = some outcome

/-! ### Runs -/

section Runs

variable {settings : Settings} {interfaces : Interfaces} {localAddress : Except IoError Endpoint}

theorem coherent_course (hcreate : create settings interfaces localAddress = .ok s)
    (moves : List Move) (m : Move) :
    ∀ a ∈ (s.after moves).session.course m, a.session.Coherent := by
  obtain ⟨relay, rfl⟩ := create_eq hcreate
  refine course_induction (P := fun _ t => t.Coherent) ?_ Stage.coherent moves m
  exact ⟨by simp, fun _ => rfl, fun _ => rfl, fun hraised => absurd hraised Bool.false_ne_true⟩

theorem coherent_after (hcreate : create settings interfaces localAddress = .ok s)
    (moves : List Move) : (s.after moves).session.Coherent :=
  after_of_course (coherent_course hcreate moves)

theorem confirmedAsGuest_of_promised
    (hcreate : create settings interfaces localAddress = .ok s) (moves : List Move) {w : Waiting}
    (hw : w ∈ (s.after moves).session.waiting) (hpromised : w.pause.promised? = some outcome) :
    s.ConfirmedAsGuest moves w.id outcome := by
  induction moves using List.reverseRecOn generalizing w with
  | nil =>
    obtain ⟨relay, rfl⟩ := create_eq hcreate
    exact absurd hw List.not_mem_nil
  | append_singleton moves m ih =>
    have hmove := hw
    rw [after_concat] at hmove
    rcases (steps_move _ m).of_promised (coherent_after hcreate moves) hmove hpromised with
      ⟨v, hv, hid, hpromised⟩ | ⟨rfl, hguest, hnetwork, -⟩
    · obtain ⟨early, hearly, hrest⟩ := ih hv hpromised
      rw [← hid]
      exact ⟨early, hearly.trans (List.prefix_append ..), hrest⟩
    · exact ⟨moves, List.prefix_rfl, hnetwork, hguest, w, hw, rfl, hpromised⟩

/-- What is promised to a call is success. -/
theorem isJoined_of_promised (hcreate : create settings interfaces localAddress = .ok s)
    (moves : List Move) {w : Waiting} (hw : w ∈ (s.after moves).session.waiting)
    (hpromised : w.pause.promised? = some outcome) : outcome.isJoined = true := by
  induction moves using List.reverseRecOn generalizing w with
  | nil =>
    obtain ⟨relay, rfl⟩ := create_eq hcreate
    exact absurd hw List.not_mem_nil
  | append_singleton moves m ih =>
    rw [after_concat] at hw
    rcases (steps_move _ m).of_promised (coherent_after hcreate moves) hw hpromised with
      ⟨v, hv, -, hpromised⟩ | ⟨-, -, -, hjoined⟩
    · exact ih hv hpromised
    · exact hjoined

/-- Wherever nothing is half done the fields of the session agree, and traffic is refused for want
of a link just where the session is idle; from an idle session on no packet is handled. A call that
succeeds does so in a turn of its own, in a network and as nobody's guest, unless the session was a
guest when the call took its confirmation. -/
theorem coherent_throughout (hcreate : create settings interfaces localAddress = .ok s)
    (moves : List Move) (m : Move) :
    (∀ a ∈ (s.after moves).session.course m, a.session.Coherent ∧ ∀ traffic,
      (.finished a.session.calls (.failed .notStarted) ∈
        (a.session.move (.event (.call (.sendTraffic traffic)))).told ↔
          a.session.phase = .idle)) ∧
    ((s.after moves).session.course m).IsChain (fun a b => a.session.phase = .idle →
      ∃ more, b.told = a.told ++ more ∧ ∀ sender packet, .handled sender packet ∉ more) ∧
    ∀ call outcome, .finished call outcome ∈ ((s.after moves).session.move m).told →
      outcome.isJoined = true →
      m = .turn (.resume call) ∧ (s.ConfirmedAsGuest moves call outcome ∨
        (s.after (moves ++ [m])).session.membership = none ∧
          (s.after (moves ++ [m])).session.inNetwork = true) := by
  refine ⟨fun a ha => ⟨coherent_course hcreate moves m a ha, notStarted_iff _⟩, ?_, ?_⟩
  · exact (isChain_course _ m).imp fun a b hstage => hstage.not_handled
  · intro call outcome hfinished hjoined
    have hsteps := steps_move (s.after moves).session m
    obtain ⟨between, rest, hall⟩ := List.append_of_mem hfinished
    obtain ⟨told, first, last, more, t, u, hbefore, hstep, -, -⟩ := hsteps.split hall
    obtain ⟨hmove, ⟨w, hw, rfl, hpromised⟩ | ⟨hguest, hraised⟩⟩ :=
      hstep.of_success (List.mem_append_right _ List.mem_cons_self) hjoined
    · exact ⟨hmove, .inl (confirmedAsGuest_of_promised hcreate moves hw hpromised)⟩
    · -- The confirmation was of the network the session is in, and the turn does not leave it.
      have hnetwork :=
        hbefore.inNetwork_of_raised (coherent_after hcreate moves).confirmed hraised
      obtain ⟨hnetwork', hguest'⟩ := hbefore.still hmove
      obtain ⟨hnetwork'', hguest''⟩ := hsteps.still hmove
      rw [after_concat]
      refine ⟨hmove, .inr ⟨?_, ?_⟩⟩
      · rw [← hguest, hguest', ← hguest'']
        rfl
      · rw [← hnetwork, hnetwork', ← hnetwork'']
        rfl

end Runs

/-- A station that is nobody's guest joins. -/
theorem coherent_throughout_of_joiningRun :
    let moves := joiningRun ++ [sampleDatagram (.connected default)]
    create {} (.ok []) (.ok sampleAddress) = .ok sample ∧
      ∃ outcome, .finished 0 outcome ∈
          ((sample.after moves).session.move (.turn (.resume 0))).told ∧
        outcome.isJoined = true ∧ (sample.ConfirmedAsGuest moves 0 outcome ∨
          (sample.after (moves ++ [.turn (.resume 0)])).session.membership = none ∧
            (sample.after (moves ++ [.turn (.resume 0)])).session.inNetwork = true) := by
  intro moves
  have hcreate : create {} (.ok []) (.ok sampleAddress) = .ok sample := rfl
  have hconfirmed : sample.after moves = _ :=
    after_sampleDatagram joiningRun (by decide +kernel) (by decide +kernel) (by decide +kernel)
      (by decide +kernel)
  have hreports : ((sample.after moves).session.move (.turn (.resume 0))).told.any
      (Notice.reports 0) = true := by
    rw [hconfirmed]
    decide +kernel
  obtain ⟨before, outcome, after, htold, hjoined⟩ := exists_of_reports hreports
  have hfinished : .finished 0 outcome ∈
      ((sample.after moves).session.move (.turn (.resume 0))).told := by
    rw [htold]
    exact List.mem_append_right _ List.mem_cons_self
  exact ⟨hcreate, outcome, hfinished, hjoined,
    ((coherent_throughout hcreate moves _).2.2 0 outcome hfinished hjoined).2⟩

end LocalPlay.Session
