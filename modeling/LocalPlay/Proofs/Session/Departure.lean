import LocalPlay.Proofs.Session.Course
import LocalPlay.Proofs.Session.Moment

/-!
# Leaving a network

There are many ways out of a network: a packet that says so, calls, a receive loop that ends, a host
that cannot be reached. All go through the same act, but one may come while another is under way. So
the statement is about neighbours in the course of a move: where the first is in a network and the
second is not, one departure was told in between, and else none.

The reason told is a field of the session. What it should be is a question to the history: what the
last removal said that was handled after the last confirmation. Every step of a move keeps the two
in agreement.
-/

namespace LocalPlay.Session

open Net Wire Overlay Timing

/-- Listeners are told that the network is left. -/
def Notice.isDeparture : Notice → Bool
  | changed change => !change.connected
  | _ => false

/-- Why the relay removes this node from its network. -/
def Notice.removal? : Notice → Option LeaveReason
  | handled _ (.reject removal) => some removal.reason
  | _ => none

/-- What was told after the last confirmation. -/
def sinceConfirmed (history : List Notice) : List Notice :=
  (history.reverse.takeWhile (!·.isConfirmation)).reverse

/-- What the last removal said that was handled after the last confirmation. -/
def reasonGiven (history : List Notice) : LeaveReason :=
  (latest Notice.removal? (sinceConfirmed history)).getD .none

/-- From the first act to the second the network is left once, or not at all. -/
def Act.Departs (history : List Notice) (a b : Act) : Prop :=
  ∃ more, b.told = a.told ++ more ∧ more.filter Notice.isDeparture =
    if a.session.inNetwork && !b.session.inNetwork then
      [.changed (.left (reasonGiven (history ++ a.told)))]
    else
      []

/-! ### The reason in the history -/

/-- The notice decides what reason there would be. -/
def Notice.isOfReason (notice : Notice) : Bool :=
  notice.isConfirmation || notice.removal?.isSome

theorem Notice.isOfReason_eq_false {notice : Notice} : notice.isOfReason = false ↔
    notice.isConfirmation = false ∧ notice.removal? = none := by
  rw [isOfReason, Bool.or_eq_false_iff, Option.isSome_eq_false_iff, Option.isNone_iff_eq_none]

theorem Notice.isOfReason_of_incidental {notice : Notice} (hnotice : notice.isIncidental = true) :
    notice.isOfReason = false := by
  cases notice with
  | handled sender packet =>
    cases packet with
    | connected info => exact nomatch hnotice
    | reject removal => exact nomatch hnotice
    | _ => rfl
  | _ => rfl

section Reasons

variable {history more : List Notice}

theorem sinceConfirmed_concat (history : List Notice) (notice : Notice) :
    sinceConfirmed (history ++ [notice]) =
      if notice.isConfirmation then [] else sinceConfirmed history ++ [notice] := by
  rw [sinceConfirmed, List.reverse_concat, List.takeWhile_cons]
  cases notice.isConfirmation with
  | true => rfl
  | false => exact List.reverse_cons

theorem reasonGiven_concat_confirmation {notice : Notice} (hnotice : notice.isConfirmation = true) :
    reasonGiven (history ++ [notice]) = .none := by
  rw [reasonGiven, sinceConfirmed_concat, if_pos hnotice]
  rfl

theorem reasonGiven_concat {notice : Notice} (hnotice : notice.isConfirmation = false) :
    reasonGiven (history ++ [notice]) = notice.removal?.getD (reasonGiven history) := by
  rw [reasonGiven, sinceConfirmed_concat, hnotice, if_neg Bool.false_ne_true, latest_concat]
  cases notice.removal? with
  | none => rfl
  | some reason => rfl

theorem reasonGiven_append (hmore : ∀ notice ∈ more, notice.isOfReason = false) :
    reasonGiven (history ++ more) = reasonGiven history := by
  induction more using List.reverseRecOn with
  | nil => rw [List.append_nil]
  | append_singleton more notice ih =>
    have hlast := hmore notice (List.mem_append_right _ (List.mem_singleton_self _))
    obtain ⟨hconfirmation, hremoval⟩ := Notice.isOfReason_eq_false.mp hlast
    rw [← List.append_assoc, reasonGiven_concat hconfirmation, hremoval,
      ih fun _ hmem => hmore _ (List.mem_append_left _ hmem)]
    rfl

end Reasons

/-! ### Steps -/

variable {origin s t : Session} {m : Move} {history told more : List Notice}

/-- A step leaves the reason alone unless it says what it is now. -/
theorem Step.leaveReason_eq (h : Step origin m s t more)
    (hreason : s.leaveReason = reasonGiven history) :
    t.leaveReason = reasonGiven (history ++ more) := by
  have hsilent {more : List Notice} (hmore : ∀ notice ∈ more, notice.isOfReason = false) :
      s.leaveReason = reasonGiven (history ++ more) := by
    rw [reasonGiven_append hmore]
    exact hreason
  cases h with
  | join sender info =>
    rw [List.append_cons, reasonGiven_append (List.forall_mem_singleton.mpr rfl)]
    exact (reasonGiven_concat_confirmation rfl).symm
  | reject sender removal =>
    have hremoval : reasonGiven (history ++ [.handled sender (.reject removal)]) =
        removal.reason := reasonGiven_concat rfl
    exact hremoval.symm
  | say notice hnotice =>
    exact hsilent (List.forall_mem_singleton.mpr (Notice.isOfReason_of_incidental hnotice))
  | openLink =>
    exact hsilent (List.forall_mem_cons.mpr ⟨rfl, List.forall_mem_singleton.mpr rfl⟩)
  | syncNetwork =>
    exact hsilent (List.forall_mem_cons.mpr
      ⟨rfl, List.forall_mem_cons.mpr ⟨rfl, List.forall_mem_singleton.mpr rfl⟩⟩)
  | closeLink => exact hsilent (List.forall_mem_singleton.mpr rfl)
  | updatePassphrase => exact hsilent (List.forall_mem_singleton.mpr rfl)
  | ask => exact hsilent (List.forall_mem_singleton.mpr rfl)
  | goOn => exact hsilent (List.forall_mem_singleton.mpr rfl)
  | confirm => exact hsilent (List.forall_mem_singleton.mpr rfl)
  | settle => exact hsilent (List.forall_mem_singleton.mpr rfl)
  | greet => exact hsilent (List.forall_mem_singleton.mpr rfl)
  | leave => exact hsilent (List.forall_mem_singleton.mpr rfl)
  | _ => exact hsilent fun _ => nofun

theorem Steps.leaveReason_eq (h : Steps origin m s t told)
    (hreason : s.leaveReason = reasonGiven history) :
    t.leaveReason = reasonGiven (history ++ told) := by
  induction h with
  | refl =>
    rw [List.append_nil]
    exact hreason
  | tail _ hstep ih =>
    rw [← List.append_assoc]
    exact hstep.leaveReason_eq ih

/-- A step that confirms nothing leaves the network or not. -/
theorem Step.departure (h : Step origin m s t more)
    (hmore : ∀ notice ∈ more, notice.isConfirmation = false) :
    t.inNetwork = s.inNetwork ∧ more.filter Notice.isDeparture = [] ∨
      s.inNetwork = true ∧ t.inNetwork = false ∧
        more.filter Notice.isDeparture = [.changed (.left s.leaveReason)] := by
  cases h with
  | join sender info => exact nomatch hmore _ List.mem_cons_self
  | leave hnetwork => exact .inr ⟨hnetwork, rfl, rfl⟩
  | say notice hnotice =>
    cases notice with
    | changed change => exact nomatch hnotice
    | _ => exact .inl ⟨rfl, rfl⟩
  | _ => exact .inl ⟨rfl, rfl⟩

/-- Where nothing is confirmed on the way a network is left once or not at all. -/
theorem Steps.departures (h : Steps origin m s t told)
    (hreason : s.leaveReason = reasonGiven history)
    (hsilent : ∀ notice ∈ told, notice.isOfReason = false) :
    told.filter Notice.isDeparture =
      if s.inNetwork && !t.inNetwork then [.changed (.left (reasonGiven history))] else [] := by
  -- There is no way back into a network; this keeps a second departure from following the first.
  suffices hboth : told.filter Notice.isDeparture =
      (if s.inNetwork && !t.inNetwork then [.changed (.left (reasonGiven history))] else []) ∧
      (t.inNetwork = true → s.inNetwork = true) from hboth.1
  induction h with
  | refl =>
    rw [Bool.and_not_self]
    exact ⟨rfl, id⟩
  | @tail t u told more hsteps hstep ih =>
    have hbefore : ∀ notice ∈ told, notice.isOfReason = false :=
      fun _ hmem => hsilent _ (List.mem_append_left _ hmem)
    have hmore : ∀ notice ∈ more, notice.isConfirmation = false := fun _ hmem =>
      (Notice.isOfReason_eq_false.mp (hsilent _ (List.mem_append_right _ hmem))).1
    have hkept := hsteps.leaveReason_eq hreason
    rw [reasonGiven_append hbefore] at hkept
    obtain ⟨hfilter, hback⟩ := ih hbefore
    rw [List.filter_append, hfilter]
    rcases hstep.departure hmore with ⟨hsame, hnone⟩ | ⟨hin, hout, hone⟩
    · rw [hnone, hsame, List.append_nil]
      exact ⟨rfl, hback⟩
    · rw [hone, hin, hout, hback hin, hkept]
      exact ⟨rfl, nofun⟩

/-! ### Stages -/

theorem Act.handle_connected (a : Act) (sender : Endpoint) (info : NetworkInfo) :
    (a.handle sender (.connected info)).told =
        a.told ++ [.handled sender (.connected info), .changed (.arrived info)] ∧
      (a.handle sender (.connected info)).session.inNetwork = true := by
  obtain ⟨ready, hwake⟩ := Act.foldl_wake_eq (fun w : Waiting => .resume w.id)
    (a.session.waiting.filter (Signal.joined ∈ ·.pause.awaited))
    { session := { a.session with
        inNetwork := true
        leaveReason := .none
        latches := a.session.latches.raise .joined }
      told := a.told ++ [.handled sender (.connected info)] }
  have hhandle : a.handle sender (.connected info) = _ :=
    congrArg (Act.tell · (.changed (.arrived info))) hwake
  rw [hhandle]
  exact ⟨(List.append_cons ..).symm, rfl⟩

theorem Notice.isOfReason_of_not_handled {notice : Notice}
    (hnotice : ∀ sender packet, notice ≠ .handled sender packet) : notice.isOfReason = false := by
  cases notice with
  | handled sender packet => exact absurd rfl (hnotice sender packet)
  | _ => rfl

theorem Stage.departs {a b : Act} (h : s.Stage m a b)
    (hreason : a.session.leaveReason = reasonGiven (history ++ a.told)) : a.Departs history b := by
  have hleads := h.leads
  obtain ⟨told, htold, hsteps⟩ := id hleads
  have hsilent (hnotices : ∀ notice ∈ told, notice.isOfReason = false) : a.Departs history b :=
    ⟨told, htold, hsteps.departures hreason hnotices⟩
  cases h with
  | whole hopened =>
    refine hsilent fun notice hmem => Notice.isOfReason_of_not_handled fun sender packet => ?_
    rintro rfl
    refine not_handled_of_not_opened hopened sender packet ?_
    rw [htold]
    exact List.mem_append_right _ hmem
  | reorder streams =>
    refine ⟨[], rfl, ?_⟩
    rw [Bool.and_not_self]
    rfl
  | @packet a sender bytes packet hmove hphase =>
    obtain ⟨more, hmore, hquiet⟩ := a.told_handle sender packet
    obtain rfl := List.append_cancel_left (htold.symm.trans hmore)
    have hother (hpacket : (Notice.handled sender packet).isOfReason = false) :
        a.Departs history (a.handle sender packet) := by
      refine hsilent (List.forall_mem_cons.mpr ⟨hpacket, fun notice hmem => ?_⟩)
      exact Notice.isOfReason_of_not_handled fun _ _ hnotice => hquiet _ _ (hnotice ▸ hmem)
    cases packet with
    | connected info =>
      obtain ⟨hconnected, hnetwork⟩ := a.handle_connected sender info
      refine ⟨_, hconnected, ?_⟩
      rw [hnetwork, Bool.not_true, Bool.and_false]
      rfl
    | reject removal =>
      have hnetwork : (a.handle sender (.reject removal)).session.inNetwork =
          a.session.inNetwork := rfl
      refine ⟨[.handled sender (.reject removal)], rfl, ?_⟩
      rw [hnetwork, Bool.and_not_self]
      rfl
    | _ => exact hother rfl

/-- A network is left exactly once, and with the right reason. Between two neighbours in the course
of any move of a run the one departure is told if the session was in a network before and is in none
after, and none is told otherwise; it has the reason of the last removal handled after the last
confirmation. -/
theorem departs_once {settings : Settings} {interfaces : Interfaces}
    {localAddress : Except IoError Endpoint}
    (hcreate : create settings interfaces localAddress = .ok s) (moves : List Move) (m : Move) :
    ((s.after moves).session.course m).IsChain (Act.Departs (s.after moves).told) := by
  have hreason : ∀ a ∈ (s.after moves).session.course m,
      a.session.leaveReason = reasonGiven ((s.after moves).told ++ a.told) := by
    refine course_induction (P := fun history t => t.leaveReason = reasonGiven history) ?_ ?_
      moves m
    · obtain ⟨relay, rfl⟩ := create_eq hcreate
      rfl
    · intro history t m a b hstage hbefore
      obtain ⟨told, htold, hsteps⟩ := hstage.leads
      rw [htold, ← List.append_assoc]
      exact hsteps.leaveReason_eq hbefore
  refine (isChain_course _ m).imp_of_mem_imp fun a b ha _ hstage => ?_
  exact hstage.departs (hreason a ha)

/-- The relay confirms a network, removes this node as its administrator, and then ends it. -/
theorem departs_once_of_removal :
    let moves := [sampleCall (.scan default), sampleDatagram (.connected default),
      sampleDatagram (.reject ⟨0, .admin⟩)]
    create {} (.ok []) (.ok sampleAddress) = .ok sample ∧
      (sample.after moves).session.inNetwork = true ∧
      (sample.after (moves ++ [sampleDatagram (.disconnect 0)])).session.inNetwork = false ∧
      reasonGiven (sample.after moves).told = .admin ∧
      ((sample.after moves).session.course (sampleDatagram (.disconnect 0))).IsChain
        (Act.Departs (sample.after moves).told) := by
  intro moves
  have hcreate : create {} (.ok []) (.ok sampleAddress) = .ok sample := rfl
  have hjoin : sample.after ([sampleCall (.scan default)] ++
      [sampleDatagram (.connected default)]) = _ :=
    after_sampleDatagram _ (by decide +kernel) (by decide +kernel) (by decide +kernel)
      (by decide +kernel)
  have hremove : sample.after moves = _ :=
    after_sampleDatagram ([sampleCall (.scan default)] ++ [sampleDatagram (.connected default)])
      (by decide +kernel) (by rw [hjoin]; decide +kernel) (by rw [hjoin]; decide +kernel)
      (by rw [hjoin]; decide +kernel)
  have hend : sample.after (moves ++ [sampleDatagram (.disconnect 0)]) = _ :=
    after_sampleDatagram moves (by decide +kernel) (by rw [hremove, hjoin]; decide +kernel)
      (by rw [hremove, hjoin]; decide +kernel) (by rw [hremove, hjoin]; decide +kernel)
  refine ⟨hcreate, ?_, ?_, ?_, departs_once hcreate moves _⟩
  · rw [hremove, hjoin]
    decide +kernel
  · rw [hend, hremove, hjoin]
    decide +kernel
  · rw [hremove, hjoin]
    decide +kernel

end LocalPlay.Session
