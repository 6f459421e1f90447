import LocalPlay.Proofs.Session.Answers

/-!
# What removals report

The host of a network asks the relay to remove a station, and waits for the acknowledgement. Only in
a network there is anyone to ask; elsewhere nothing happens. A removal succeeds only if its request
was acknowledged in time and no error is stored when it looks. And then it does succeed: unless an
error comes while it waits, or another removal begins and forgets the acknowledgement, its only wait
ends with the acknowledgement.
-/

namespace LocalPlay.Session

open Net Wire Overlay Timing

/-- The wait of a removal that begins now. -/
def removalWait (s : Session) : Waiting :=
  ⟨s.calls, some (s.clock + s.timeouts.inactive), .rejectReply⟩

/-- While the call that begins now waits for an acknowledgement no error is reported, no receive
fails, and no removal begins. -/
def Unhindered (s : Session) (call : Call) (later : List Move) : Prop :=
  ∀ middle m last, later = middle ++ m :: last →
    (s.after (.event (.call call) :: middle)).session.Waits s.calls .rejectReply →
    ¬ (s.after (.event (.call call) :: middle)).session.Alarms m ∧
      ∀ removal, m ≠ .event (.call (.reject removal))

variable {s : Session} {m : Move} {w : Waiting} {removal : Removal} {later : List Move}

/-! ### The beginning -/

theorem move_reject_of_inNetwork (hnetwork : s.inNetwork = true) (removal : Removal) :
    s.move (.event (.call (.reject removal))) =
      { session := { s with
          calls := s.calls + 1
          latches := (s.latches.lower .rejectReply).lower .relayError
          waiting := s.waiting ++ [s.removalWait]
          ready := .resume s.calls :: s.ready }
        told := [.posted (some s.calls) .relay (.reject removal)
          (s.link .relay (.reject removal))] } :=
  if_pos hnetwork

theorem move_reject_of_not_inNetwork (hnetwork : s.inNetwork = false) (removal : Removal) :
    s.move (.event (.call (.reject removal))) =
      { session := { s with calls := s.calls + 1 }
        told := [.finished s.calls (.removed false)] } :=
  if_neg (by rw [hnetwork]; exact Bool.false_ne_true)

theorem asks_reject (hnetwork : s.inNetwork = true) (removal : Removal) :
    s.Asks (.event (.call (.reject removal))) s.calls (.reject removal) .rejectReply := by
  have hmove := move_reject_of_inNetwork hnetwork removal
  refine ⟨⟨_, by rw [hmove]; exact List.mem_cons_self⟩, ?_⟩
  rw [hmove]
  simp

/-! ### The wait -/

/-- A removal waits once, in a network, and from its beginning. -/
theorem wait_of_removal (hsound : s.Sound) (h : s.Awaits (.reject removal) later w) :
    s.inNetwork = true ∧ w = s.removalWait ∧ ∀ between, between <+: later →
      w ∈ (s.after (.event (.call (.reject removal)) :: between)).session.waiting := by
  induction h with
  | @begins w timeout hw hid hfirst hdeadline =>
    have hbegun : w ∈ (s.move (.event (.call (.reject removal)))).session.waiting := hw
    have hold : w ∉ s.waiting := fun hw => hsound.not_yet hw hid
    cases hnetwork : s.inNetwork with
    | true =>
      rw [move_reject_of_inNetwork hnetwork] at hbegun
      have hnew := (List.mem_append.mp hbegun).resolve_left hold
      refine ⟨rfl, List.mem_singleton.mp hnew, fun between hbetween => ?_⟩
      rwa [List.prefix_nil.mp hbetween]
    | false =>
      rw [move_reject_of_not_inNetwork hnetwork] at hbegun
      exact absurd hbegun hold
  | @staysOn later m v w h hw hbare ih =>
    obtain ⟨hnetwork, hown, hsince⟩ := ih
    obtain rfl : w = v := by
      refine Waiting.eq_of_bare ?_ hbare
      rw [hown]
      exact List.cons_ne_nil _ _
    refine ⟨hnetwork, hown, fun between hbetween => ?_⟩
    rcases List.prefix_concat_iff.mp hbetween with rfl | hbefore
    · exact hw
    · exact hsince between hbefore
  | goesOn _ _ _ hnext _ ih =>
    rw [ih.2.1] at hnext
    rcases hnext.cases with ⟨operation, hpause, -⟩ | ⟨hconfirmed, -⟩
    · cases hpause
    · cases hconfirmed

/-! ### The end -/

/-- No call begins with this answer. -/
theorem Call.answer?_ne_removed (call : Call) (s : Session) :
    call.answer? s ≠ some (.removed true) := by
  cases call with
  | operate operation =>
    cases operation with
    | _ => simp [answer?, Operation.failure]
  | sendTraffic traffic =>
    simp only [answer?]
    repeat' split
    all_goals simp
  | _ => simp [answer?]

theorem Pause.removed_of_verdict {pause : Pause} {index : Option Nat}
    (hverdict : pause.verdict? s index = some (.removed true)) :
    pause = .rejectReply ∧ index = some 0 ∧ s.lastError = .none := by
  cases pause with
  | handshake operation =>
    rw [verdict?, Option.ite_none_left_eq_some] at hverdict
    cases operation with
    | _ => cases hverdict.2
  | confirmation =>
    rw [verdict?] at hverdict
    repeat' split at hverdict
    all_goals cases hverdict
  | joinReply =>
    rw [verdict?] at hverdict
    repeat' split at hverdict
    all_goals cases hverdict
  | rejectReply =>
    have hyes := Outcome.removed.inj (Option.some.inj hverdict)
    exact ⟨rfl, of_decide_eq_true hyes⟩
  | _ => cases hverdict

/-- A removal that succeeds finds its acknowledgement and no error. -/
theorem removed_cases {call : Nat} (hpromised : ∀ w ∈ s.waiting, ∀ outcome,
      w.pause.promised? = some outcome → outcome.isJoined = true)
    (hfinished : .finished call (.removed true) ∈ (s.move m).told) :
    (∃ w ∈ s.waiting, w.id = call) ∧ s.latches.isRaised .rejectReply = true ∧
      s.lastError = .none := by
  rcases finished_cases hfinished with ⟨begun, -, -, hanswer⟩ | ⟨-, hverdict⟩
  · exact absurd hanswer (begun.answer?_ne_removed s)
  · obtain ⟨w, hw, hid, hcases⟩ := exists_pause_of_verdict hverdict
    rcases hcases with ⟨-, hdone⟩ | hgiven | ⟨index, hverdict, hadmits⟩
    · cases hdone
    · exact absurd (hpromised w hw _ hgiven) Bool.false_ne_true
    · obtain ⟨hpause, rfl, hnone⟩ := Pause.removed_of_verdict hverdict
      refine ⟨⟨w, hw, hid⟩, ?_, hnone⟩
      cases hadmits with
      | fired hsignal hraised =>
        rw [hpause] at hsignal
        obtain rfl := Option.some.inj hsignal
        exact hraised

/-- A removal that finds no error and ends has been acknowledged, or its time is over. -/
theorem eq_removed_of_verdict (hnumbered : Numbered (s.waiting.map (·.id)) s.calls)
    (hw : w ∈ s.waiting) (hpause : w.pause = .rejectReply)
    (hquiet : s.latches.isRaised .relayError = false) (hnone : s.lastError = .none)
    (htime : s.latches.isRaised .rejectReply = true ∨ w.deadline.any (· ≤ s.clock) = false)
    {outcome : Outcome} (hverdict : s.verdict? w.id = some outcome) : outcome = .removed true := by
  obtain ⟨v, hv, hid, hcases⟩ := exists_pause_of_verdict hverdict
  obtain rfl : v = w := hnumbered.eq_of_id hv hw hid
  rw [hpause] at hcases
  rcases hcases with ⟨hcleanup, -⟩ | hpromised | ⟨index, hverdict, hadmits⟩
  · cases hcleanup
  · cases hpromised
  · rw [← Option.some.inj hverdict]
    cases hadmits with
    | @fired index signal hsignal hraised =>
      rw [hpause] at hsignal
      rcases index with _ | _ | index
      · simp [hnone]
      · obtain rfl := Option.some.inj hsignal
        exact absurd (hquiet.symm.trans hraised) Bool.false_ne_true
      · cases hsignal
    | timedOut hdown hover =>
      rw [hpause] at hdown
      rcases htime with hraised | hahead
      · have hlow := hdown .rejectReply List.mem_cons_self
        exact absurd (hlow.symm.trans hraised) Bool.false_ne_true
      · exact absurd (hahead.symm.trans hover) Bool.false_ne_true

/-! ### Removals that nothing hinders -/

/-- Only removals that begin forget an acknowledgement. -/
theorem acknowledged_move (hmove : ∀ removal, m ≠ .event (.call (.reject removal))) :
    (s.move m).session.latches.isRaised .rejectReply = true ↔
      s.latches.isRaised .rejectReply = true ∨
        ∃ sender, .handled sender .rejectReply ∈ (s.move m).told := by
  have hforget : (s.forget m).latches = s.latches := by
    rcases s.forget_cases m with hforget | ⟨filter, -, hforget⟩ | ⟨removal, hreject, -⟩
    · rw [hforget]
    · rw [hforget]
    · exact absurd hreject (hmove removal)
  rw [← hforget]
  exact (s.notes_move m).acknowledged

/-- Nothing is said of errors in a run in which no move of these alarms. -/
theorem not_stored_of_unhindered (hsound : s.Sound) (hnone : s.lastError = .none)
    (hnetwork : s.inNetwork = true) (h : s.Unhindered (.reject removal) later)
    (hwaits : ∀ between, between <+: later → s.removalWait ∈
      (s.after (.event (.call (.reject removal)) :: between)).session.waiting) :
    (s.after (.event (.call (.reject removal)) :: later)).session.latches.isRaised .relayError =
        false ∧
      (s.after (.event (.call (.reject removal)) :: later)).session.lastError = .none := by
  let t := (s.move (.event (.call (.reject removal)))).session
  have hbegun : t = _ := congrArg Act.session (move_reject_of_inNetwork hnetwork removal)
  have hsplit (moves : List Move) : (s.after (.event (.call (.reject removal)) :: moves)).session =
      (t.after moves).session := by
    rw [after_cons]
    rfl
  have ht : t.Sound := hsound.move _
  simp only [hsplit] at hwaits ⊢
  have hcalm {middle last : List Move} {n : Move} (hlater : later = middle ++ n :: last) :
      ¬ (t.after middle).session.Alarms n := by
    have hwait := hwaits middle (hlater ▸ List.prefix_append _ _)
    have hmiddle := h middle n last hlater
    rw [hsplit] at hmiddle
    exact (hmiddle ⟨_, hwait, rfl, rfl⟩).1
  constructor
  · rw [Bool.eq_false_iff]
    intro hraised
    have hquiet : t.latches.isRaised .relayError = false := by
      rw [hbegun]
      simp
    have hmem : (s.calls, .rejectReply) ∈ (t.after later).session.warnings.listeners := by
      rw [mem_listeners]
      exact ⟨by simp [Pause.awaited], _, hwaits later List.prefix_rfl, rfl, rfl⟩
    obtain ⟨middle, n, last, hlater, halarms, -⟩ := alarmed_of_raised hquiet later hmem hraised
    exact hcalm hlater halarms
  · by_contra hstored
    have hclear : t.lastError = .none := by
      rw [hbegun]
      exact hnone
    have hlatest := latest_of_stored ht hclear later hstored
    obtain ⟨notice, hmem, herror⟩ := exists_error_of_latest hlatest
    obtain ⟨before, after, htold⟩ := List.append_of_mem hmem
    obtain ⟨early, m, between, rest, hmoves, -, hmove⟩ := told_origin htold
    obtain ⟨last, rfl⟩ := hmoves
    refine hcalm (n := m) (List.append_assoc ..) (.inl ⟨notice, ?_, ?_⟩)
    · rw [hmove]
      exact List.mem_append_right _ List.mem_cons_self
    · rw [herror]
      rfl

theorem Unhindered.of_prefix {call : Call} {part : List Move} (h : s.Unhindered call later)
    (hpart : part <+: later) : s.Unhindered call part := by
  obtain ⟨rest, rfl⟩ := hpart
  intro middle m last hsplit
  refine h middle m (last ++ rest) ?_
  rw [hsplit, List.append_assoc]
  rfl

/-- No error is reported in a turn. -/
theorem not_alarms_turn (s : Session) (activity : Activity) : ¬ s.Alarms (.turn activity) := by
  rintro (⟨notice, hmem, herror⟩ | ⟨error, hmove, -⟩)
  · cases notice with
    | handled sender packet => exact not_handled_of_not_opened rfl sender packet hmem
    | _ => cases herror
  · cases hmove

theorem Unhindered.settle {call : Call} (h : s.Unhindered call later)
    (activities : List Activity) : s.Unhindered call (later ++ activities.map .turn) := by
  intro middle m last hsplit hwaits
  rcases split_append hsplit with ⟨rest, hlater, -⟩ | ⟨between, -, hturns⟩
  · exact h middle m rest hlater hwaits
  · have hmem : m ∈ activities.map .turn := hturns ▸ List.mem_append_right _ List.mem_cons_self
    obtain ⟨activity, -, rfl⟩ := List.mem_map.mp hmem
    exact ⟨not_alarms_turn _ activity, fun _ => nofun⟩

/-- As long as nothing hinders it, a removal that is acknowledged in time waits or has succeeded. -/
theorem removed_or_waits (hsound : s.Sound) (hnone : s.lastError = .none)
    (hnetwork : s.inNetwork = true) {between : List Move} {n : Move}
    (h : s.Unhindered (.reject removal) (between ++ n :: later))
    (hhandled : ∃ sender, .handled sender .rejectReply ∈
      ((s.after (.event (.call (.reject removal)) :: between)).session.move n).told)
    (htime : ∀ middle, middle <+: between →
      (s.after (.event (.call (.reject removal)) :: middle)).session.clock <
        s.clock + s.timeouts.inactive)
    {part : List Move} (hpart : part <+: between ++ n :: later) :
    .finished s.calls (.removed true) ∈
        (s.after (.event (.call (.reject removal)) :: part)).told ∨
      s.removalWait ∈ (s.after (.event (.call (.reject removal)) :: part)).session.waiting ∧
        (between ++ [n] <+: part → (s.after (.event (.call (.reject removal)) :: part)
          ).session.latches.isRaised .rejectReply = true) := by
  induction part using List.reverseRecOn with
  | nil =>
    refine .inr ⟨?_, fun hbefore => ?_⟩
    · show s.removalWait ∈ (s.move (.event (.call (.reject removal)))).session.waiting
      rw [move_reject_of_inNetwork hnetwork]
      exact List.mem_append_right _ List.mem_cons_self
    · exact absurd (List.prefix_nil.mp hbefore) (List.append_ne_nil_of_right_ne_nil _ (by simp))
  | append_singleton part m ih =>
    have hearlier : part <+: between ++ n :: later := (List.prefix_append _ _).trans hpart
    rw [← List.cons_append, after_concat]
    rcases ih hearlier with hdone | ⟨hw, hacknowledged⟩
    · exact .inl (List.mem_append_left _ hdone)
    obtain ⟨last, hlast⟩ := hpart
    have hcalm := (h part m last (by rw [← hlast, List.append_assoc]; rfl) ⟨_, hw, rfl, rfl⟩).2
    let u := (s.after (.event (.call (.reject removal)) :: part)).session
    have hu : u.Sound := hsound.after _
    have hawaited : s.removalWait.pause.awaited ≠ [] := List.cons_ne_nil _ _
    rcases waits_on_or_ends hu.numbered hw hawaited (fun _ _ => rfl) m with
      hstill | ⟨outcome, -, hverdict, hfinished⟩
    · refine .inr ⟨hstill, fun hbefore => (acknowledged_move hcalm).mpr ?_⟩
      rcases List.prefix_concat_iff.mp hbefore with hsame | hbefore
      · obtain ⟨rfl, hmove⟩ := List.append_inj' hsame rfl
        obtain rfl := List.singleton_inj.mp hmove
        exact .inr hhandled
      · exact .inl (hacknowledged hbefore)
    · -- It looks: nothing is stored, and before its time is over it has been acknowledged.
      obtain ⟨-, -, hsince⟩ := wait_of_removal hsound (awaits hsound hw rfl)
      obtain ⟨hquiet, hclear⟩ :=
        not_stored_of_unhindered hsound hnone hnetwork (h.of_prefix hearlier) hsince
      have hanswered : u.latches.isRaised .rejectReply = true ∨
          s.removalWait.deadline.any (· ≤ u.clock) = false := by
        have hbetween : between ++ [n] <+: between ++ n :: later :=
          (List.prefix_append_right_inj between).mpr (List.prefix_append [n] later)
        rcases List.prefix_or_prefix_of_prefix hbetween hearlier with hbefore | hbefore
        · exact .inl (hacknowledged hbefore)
        · rcases List.prefix_concat_iff.mp hbefore with hsame | hbefore
          · exact .inl (hacknowledged (hsame ▸ List.prefix_rfl))
          · exact .inr (decide_eq_false (Nat.not_le_of_lt (htime part hbefore)))
      obtain rfl :=
        eq_removed_of_verdict hu.numbered hw rfl hquiet hclear hanswered hverdict
      exact .inl (List.mem_append_right _ hfinished)

/-- When the session settles, such a removal has succeeded. -/
theorem removed_on_settling (hsound : s.Sound) (hnone : s.lastError = .none)
    (hnetwork : s.inNetwork = true) {between : List Move} {n : Move}
    (h : s.Unhindered (.reject removal) (between ++ n :: later))
    (hhandled : ∃ sender, .handled sender .rejectReply ∈
      ((s.after (.event (.call (.reject removal)) :: between)).session.move n).told)
    (htime : ∀ middle, middle <+: between →
      (s.after (.event (.call (.reject removal)) :: middle)).session.clock <
        s.clock + s.timeouts.inactive) :
    let b := s.after (.event (.call (.reject removal)) :: (between ++ n :: later))
    .finished s.calls (.removed true) ∈ b.told ++ (machine.settle b.session).2 := by
  intro b
  obtain ⟨activities, hsettle⟩ := settle_eq_after b.session
  let run := between ++ n :: (later ++ activities.map .turn)
  have hrun : between ++ n :: later ++ activities.map .turn = run := List.append_assoc ..
  have hlast : s.after (.event (.call (.reject removal)) :: run) =
      b.followedBy ⟨(machine.settle b.session).1, (machine.settle b.session).2⟩ := by
    rw [← hrun, ← List.cons_append, after_append, hsettle]
  have hturns : s.Unhindered (.reject removal) run := hrun ▸ h.settle activities
  have hresult := removed_or_waits hsound hnone hnetwork hturns hhandled htime List.prefix_rfl
  have hsettled := hsound.after (.event (.call (.reject removal)) :: run)
  rw [hlast] at hresult hsettled
  rcases hresult with hdone | ⟨hw, hacknowledged⟩
  · exact hdone
  · -- It would be about to look.
    have hraised := hacknowledged
      ((List.prefix_append_right_inj between).mpr (List.prefix_append [n] _))
    have hready := (hsound.after (.event (.call (.reject removal)) ::
      (between ++ n :: later))).ready_settle
    have hstill := ((hsettled.settled hready).1 _ hw).1
    exact absurd (.inr (.inr ⟨.rejectReply, List.mem_cons_self, hraised⟩)) hstill

/-- A removal succeeds only in a network, after its request was acknowledged in time, and when no
error is outstanding. Outside a network it does nothing but to fail. In a network where no error is
stored it does succeed if it is acknowledged in time and nothing hinders it while it waits: it has
when the session settles. -/
theorem removes_iff_acknowledged {origin : Session} {settings : Settings} {interfaces : Interfaces}
    {localAddress : Except IoError Endpoint}
    (hcreate : create settings interfaces localAddress = .ok origin) (early : List Move)
    (removal : Removal) :
    let s := (origin.after early).session
    let call := Move.event (.call (.reject removal))
    (∀ before m, [call] <+: before ++ [m] →
      .finished s.calls (.removed true) ∈ ((s.after before).session.move m).told →
        s.inNetwork = true ∧
        s.Answered before s.calls (.reject removal) .rejectReply settings.timeouts.inactive ∧
        ∀ error, error ≠ .none → ¬ origin.Outstanding (early ++ before) error) ∧
    (s.inNetwork = false → s.move call =
      { session := { s with calls := s.calls + 1 }
        told := [.finished s.calls (.removed false)] }) ∧
    (s.inNetwork = true → s.lastError = .none → ∀ between n later,
      s.Unhindered (.reject removal) (between ++ n :: later) →
      (∃ sender, .handled sender .rejectReply ∈
        ((s.after (call :: between)).session.move n).told) →
      (∀ middle, middle <+: between →
        (s.after (call :: middle)).session.clock < s.clock + settings.timeouts.inactive) →
      .finished s.calls (.removed true) ∈ (s.after (call :: (between ++ n :: later))).told ++
        (machine.settle (s.after (call :: (between ++ n :: later))).session).2) := by
  intro s call
  have hfresh : origin.lastError = .none ∧ origin.timeouts = settings.timeouts := by
    obtain ⟨relay, rfl⟩ := create_eq hcreate
    exact ⟨rfl, rfl⟩
  have horigin := sound_create hcreate
  have hsound : s.Sound := horigin.after early
  have htimeouts : s.timeouts = settings.timeouts := (timeouts_after origin early).trans hfresh.2
  refine ⟨fun before m hbegun hfinished => ?_, fun hnetwork => ?_,
    fun hnetwork hnone between n later hunhindered hhandled htime => ?_⟩
  · have hpromised : ∀ w ∈ (s.after before).session.waiting, ∀ outcome,
        w.pause.promised? = some outcome → outcome.isJoined = true := by
      intro w hw outcome
      have hsame : (s.after before).session = (origin.after (early ++ before)).session := by
        rw [after_append]
        rfl
      rw [hsame] at hw
      exact isJoined_of_promised hcreate _ hw
    obtain ⟨⟨w, hw, hid⟩, hraised, hnone⟩ := removed_cases hpromised hfinished
    cases before with
    | nil => exact absurd hid (hsound.not_yet hw)
    | cons first later =>
      obtain rfl : call = first := (List.cons_prefix_cons.mp hbegun).1
      obtain ⟨hnetwork, rfl, hsince⟩ := wait_of_removal hsound (awaits hsound hw hid)
      refine ⟨hnetwork, ?_, (lastError_eq_none_iff horigin hfresh.1).mp hnone⟩
      rw [← htimeouts]
      have hasks : (s.after []).session.Asks call s.calls (.reject removal) .rejectReply :=
        asks_reject hnetwork removal
      exact answered_of_raised rfl hasks hsince rfl hraised
  · exact move_reject_of_not_inNetwork hnetwork removal
  · rw [← htimeouts] at htime
    exact removed_on_settling hsound hnone hnetwork hunhindered hhandled htime

/-- A network has been created. -/
def hostingRun : List Move :=
  creatingRun ++ [sampleDatagram (.connected default)] ++ [.turn (.resume 0)]

def Outcome.removed? : Outcome → Option Bool
  | removed yes => some yes
  | _ => none

/-- The host removes a station, and the relay acknowledges it at once. -/
theorem removed_in_hostingRun :
    let s := (sample.after hostingRun).session
    let moves := [Move.event (.call (.reject default)), sampleDatagram .rejectReply]
    create {} (.ok []) (.ok sampleAddress) = .ok sample ∧ s.calls = 1 ∧
      .finished 1 (.removed true) ∈ (s.after moves).told ++
        (machine.settle (s.after moves).session).2 ∧
      s.Answered moves 1 (.reject default) .rejectReply ({} : Settings).timeouts.inactive := by
  intro s moves
  have hcreate : create {} (.ok []) (.ok sampleAddress) = .ok sample := rfl
  have hconfirmed : sample.after (creatingRun ++ [sampleDatagram (.connected default)]) = _ :=
    after_sampleDatagram_of_not_seats creatingRun (by decide +kernel) (by decide +kernel)
      (by decide +kernel) (by decide +kernel)
  have hs : s = ((sample.after (creatingRun ++ [sampleDatagram (.connected default)])).next
      (.turn (.resume 0))).session := by
    show (sample.after hostingRun).session = _
    rw [hostingRun, after_concat]
  rw [hconfirmed] at hs
  have hcalls : s.calls = 1 := by
    rw [hs]
    decide +kernel
  have hreply : s.after moves = _ :=
    after_datagram s [.event (.call (.reject default))] sample.relay (by decide +kernel)
      (by rw [hs]; decide +kernel) (by rw [hs]; decide +kernel) (by rw [hs]; decide +kernel)
  have hfinished : .finished s.calls (.removed true) ∈
      ((s.after moves).session.move (.turn (.resume 1))).told := by
    obtain ⟨outcome, hfinished, hremoved⟩ := exists_finished Outcome.removed?
      ((s.after moves).session.move (.turn (.resume 1))).told 1 true
      (by rw [hreply, hs]; decide +kernel)
    cases outcome with
    | removed yes =>
      obtain rfl := Option.some.inj hremoved
      rwa [hcalls]
    | _ => cases hremoved
  obtain ⟨honly, -, hsucceeds⟩ := removes_iff_acknowledged hcreate hostingRun default
  obtain ⟨hnetwork, hanswered, -⟩ := honly moves (.turn (.resume 1)) ⟨_, rfl⟩ hfinished
  have hnone : s.lastError = .none := by
    rw [hs]
    decide +kernel
  let asked := (s.after [.event (.call (.reject default))]).session
  have hanswer : (asked.move (sampleDatagram .rejectReply)).told =
      [.handled sample.relay .rejectReply] := by
    rw [told_sampleDatagram (by decide +kernel) (by simp only [asked, hs]; decide +kernel)
      (by simp only [asked, hs]; decide +kernel) (by simp only [asked, hs]; decide +kernel)]
    obtain ⟨ready, hraise⟩ :=
      (({ session := asked } : Act).tell (.handled sample.relay .rejectReply)).raise_eq .rejectReply
    exact congrArg Act.told hraise
  have hunhindered : s.Unhindered (.reject default) [sampleDatagram .rejectReply] := by
    intro middle m last hsplit hwaits
    obtain ⟨rfl, rfl⟩ := split_singleton hsplit
    refine ⟨?_, fun _ => nofun⟩
    rintro (⟨notice, hmem, herror⟩ | ⟨error, hmove, -⟩)
    · rw [hanswer, List.mem_singleton] at hmem
      rw [hmem] at herror
      cases herror
    · cases hmove
  have hhandled : .handled sample.relay .rejectReply ∈
      (asked.move (sampleDatagram .rejectReply)).told := by
    rw [hanswer]
    exact List.mem_singleton_self _
  have htime : ∀ middle, middle <+: [] →
      (s.after (.event (.call (.reject default)) :: middle)).session.clock <
        s.clock + ({} : Settings).timeouts.inactive := by
    intro middle hmiddle
    rw [List.prefix_nil.mp hmiddle, hs]
    decide +kernel
  refine ⟨hcreate, hcalls, ?_, ?_⟩
  · rw [← hcalls]
    exact hsucceeds hnetwork hnone [] _ [] hunhindered ⟨_, hhandled⟩ htime
  · rwa [hcalls] at hanswered

end LocalPlay.Session
