import LocalPlay.Proofs.Session.Coherence
import LocalPlay.Proofs.Session.Departure
import LocalPlay.Proofs.Session.Patience
import LocalPlay.Proofs.Session.Permission

/-!
# Hosted proxies and what creations report

A call that is to create a network reports whether the network was confirmed. Where it was not, no
proxy is hosted, not even one from before. Where it was, and the session is neither a guest nor has
left a network meanwhile, a proxy is hosted just if proxies are still permitted; for that no two
such calls may be in progress at once, since the proxy of the second takes the place of the first's
and is forgotten with the second. What is kept while the call waits is `Sheltered`: its proxy is
there as long as proxies are permitted, or the session is the guest for whose address it waits.
-/

namespace LocalPlay.Session

open Net Wire Overlay Timing

/-- The call is to create a network. -/
def Call.creates : Call → Bool
  | operate operation => operation.hosts
  | _ => false

/-- The pause belongs to a call that is to create a network. -/
def Pause.creates : Pause → Bool
  | handshake operation => operation.hosts
  | confirmation | address _ _ (.confirmed _) => true
  | _ => false

/-- No call that is to create a network begins while there is another. -/
def CreatesApart (s : Session) (moves : List Move) : Prop :=
  ∀ early call, early ++ [.event (.call call)] <+: moves → call.creates = true →
    ∀ w ∈ (s.after early).session.waiting, w.pause.creates = false

/-- No network is left. -/
def Stays (told : List Notice) : Prop :=
  ∀ notice ∈ told, notice.isDeparture = false

/-- While this call waits no other is to create a network, and it has its proxy, unless that is
forbidden, or a host that is to assign an address. -/
structure Sheltered (s : Session) (call : Nat) : Prop where
  below : call < s.calls
  kind : ∀ w ∈ s.waiting, w.id = call → w.pause.creates = true
  alone : ∀ w ∈ s.waiting, w.id = call → ∀ v ∈ s.waiting, v.pause.creates = true → v.id = call
  hosted : ∀ w ∈ s.waiting, w.id = call → w.pause.hosts = true → s.p2p = true →
    s.hosted.isSome = true
  guest : ∀ w ∈ s.waiting, w.id = call → w.pause.promised?.isSome = true →
    s.membership.isSome = true

variable {origin s t : Session} {m : Move} {told more : List Notice} {call : Nat}

/-! ### Who waits -/

namespace Pause

theorem creates_plan (pause : Pause) : pause.plan.creates = pause.creates := by
  cases pause with
  | address guest arrived outcome =>
    cases outcome with
    | _ => rfl
  | _ => rfl

theorem creates_of_hosts {pause : Pause} (hhosts : pause.hosts = true) : pause.creates = true := by
  cases pause with
  | handshake operation => exact hhosts
  | confirmation => rfl
  | _ => exact absurd hhosts Bool.false_ne_true

theorem not_creates_of_not_joins {pause : Pause} (hjoins : pause.joins = false) :
    pause.creates = false := by
  cases pause with
  | handshake operation =>
    cases operation with
    | scan filter => rfl
    | _ => exact nomatch hjoins
  | confirmation => exact nomatch hjoins
  | address guest arrived outcome => exact nomatch hjoins
  | _ => rfl

/-- The call that takes a confirmation is of the same kind afterwards. -/
theorem creates_address {pause : Pause} {outcome : Outcome}
    (hconfirmed : pause.confirmed? = some outcome) (guest : Nat) (arrived : Option OverlayConfig) :
    (address guest arrived outcome).creates = pause.creates := by
  cases pause with
  | confirmation =>
    obtain rfl := Option.some.inj hconfirmed
    rfl
  | joinReply =>
    obtain rfl := Option.some.inj hconfirmed
    rfl
  | _ => cases hconfirmed

end Pause

theorem Operation.creates_pause (operation : Operation) :
    operation.pause.creates = operation.hosts := by
  cases operation with
  | _ => rfl

/-- Where a wait comes from: the call waited already, and for the same end, or it has just begun. -/
def Continues (origin s : Session) (m : Move) (w : Waiting) : Prop :=
  (∃ v, (v ∈ origin.waiting ∨ v ∈ s.waiting) ∧ v.id = w.id ∧ v.pause.creates = w.pause.creates ∧
      (w.pause.hosts = true → v.pause.hosts = true)) ∨
    w.id = origin.calls ∧ (w.pause.creates = true →
      ∃ call, m = .event (.call call) ∧ call.creates = true)

theorem Step.continues (h : Step origin m s t more) {w : Waiting} (hw : w ∈ t.waiting) :
    Continues origin s m w := by
  have hold (hw : w ∈ s.waiting) : Continues origin s m w := .inl ⟨w, .inr hw, rfl, rfl, id⟩
  have hnew {call : Nat} {deadline : Option Nat} {pause : Pause}
      (hw : w ∈ s.waiting ++ [⟨call, deadline, pause⟩])
      (hrest : Continues origin s m ⟨call, deadline, pause⟩) : Continues origin s m w := by
    rcases List.mem_append.mp hw with hw | hw
    · exact hold hw
    · obtain rfl := List.mem_singleton.mp hw
      exact hrest
  cases h with
  | inform f hcall hplan =>
    obtain ⟨v, hv, rfl⟩ := List.mem_map.mp hw
    refine .inl ⟨v, .inr hv, (hcall v).symm, ?_, fun hhosts => ?_⟩
    · rw [← Pause.creates_plan, ← hplan, Pause.creates_plan]
    · rwa [← Pause.hosts_plan, ← hplan, Pause.hosts_plan]
  | openLink call operation deadline refusal hmove hbegun =>
    exact hnew hw (.inr ⟨hbegun.number, fun hcreates => ⟨_, hmove, hcreates⟩⟩)
  | ask call operation deadline refusal hmove hbegun =>
    refine hnew hw (.inr ⟨hbegun.number, fun hcreates => ⟨_, hmove, ?_⟩⟩)
    exact operation.creates_pause.symm.trans hcreates
  | wait call deadline pause hmove hbegun hjoins hawaited hhandshake =>
    refine hnew hw (.inr ⟨hbegun.number, fun hcreates => ?_⟩)
    exact absurd ((Pause.not_creates_of_not_joins hjoins).symm.trans hcreates) Bool.false_ne_true
  | goOn v operation deadline refusal hmove hwaiting hpause =>
    refine hnew hw (.inl ⟨v, .inl hwaiting, rfl, ?_, fun hhosts => ?_⟩)
    · rw [hpause]
      exact operation.creates_pause.symm
    · rw [hpause]
      exact operation.hosts_pause.symm.trans hhosts
  | confirmGuest v outcome deadline guest arrived hmove hwaiting hpause =>
    rcases List.mem_append.mp hw with hw | hw
    · exact hold (List.mem_filter.mp hw).1
    · obtain rfl := List.mem_singleton.mp hw
      refine .inl ⟨v, .inr hwaiting, rfl, (Pause.creates_address hpause guest arrived).symm, ?_⟩
      exact fun hhosts => absurd hhosts Bool.false_ne_true
  | giveUp => exact hold (List.mem_filter.mp hw).1
  | waste => exact hold (List.mem_filter.mp hw).1
  | confirm => exact hold (List.mem_filter.mp hw).1
  | settle => exact hold (List.mem_filter.mp hw).1
  | _ => exact hold hw

theorem Steps.continues (h : Steps origin m origin t told) {w : Waiting} (hw : w ∈ t.waiting) :
    Continues origin origin m w := by
  induction h generalizing w with
  | refl => exact .inl ⟨w, .inl hw, rfl, rfl, id⟩
  | tail _ hstep ih =>
    rcases hstep.continues hw with ⟨v, hv | hv, hid, hcreates, hhosts⟩ | hnew
    · exact .inl ⟨v, .inl hv, hid, hcreates, hhosts⟩
    · -- What the wait before comes from, this one comes from as well.
      rcases ih hv with ⟨u, hu, hid', hcreates', hhosts'⟩ | ⟨hid', hnew⟩
      · exact .inl ⟨u, hu, hid'.trans hid, hcreates'.trans hcreates, fun h => hhosts' (hhosts h)⟩
      · exact .inr ⟨hid.symm.trans hid', fun h => hnew (hcreates.trans h)⟩
    · exact .inr hnew

/-- A call that waits and was made before was waiting before, for the same end. -/
theorem exists_wait_before {w : Waiting} (hw : w ∈ (s.move m).session.waiting)
    (hbelow : w.id < s.calls) : ∃ v ∈ s.waiting, v.id = w.id ∧
      v.pause.creates = w.pause.creates ∧ (w.pause.hosts = true → v.pause.hosts = true) := by
  rcases (steps_move s m).continues hw with ⟨v, hv, hrest⟩ | ⟨hid, -⟩
  · exact ⟨v, hv.elim id id, hrest⟩
  · exact absurd hid (Nat.ne_of_lt hbelow)

theorem Step.calls_le (h : Step origin m s t more) : s.calls ≤ t.calls := by
  cases h with
  | count => exact Nat.le_succ _
  | _ => exact Nat.le_refl _

theorem Steps.calls_le (h : Steps origin m s t told) : s.calls ≤ t.calls := by
  induction h with
  | refl => exact Nat.le_refl _
  | tail _ hstep ih => exact ih.trans hstep.calls_le

/-! ### What is kept in a move -/

theorem Stays.not_left (h : Stays told) (reason : LeaveReason) : .changed (.left reason) ∉ told :=
  fun hmem => Bool.false_ne_true (h _ hmem).symm

theorem Act.Heeds.hosted_kept {b : Act} (h : Act.Heeds { session := s } b) (hstays : Stays b.told)
    (hsome : s.hosted.isSome = true) : b.session.hosted.isSome = true := by
  obtain ⟨more, htold, hfollows⟩ := h
  rw [htold] at hstays
  rw [Option.isSome_iff_ne_none]
  intro hnone
  obtain ⟨reason, hmem⟩ := hfollows.kept hsome hnone
  exact hstays.not_left reason hmem

theorem Act.Heeds.guest_kept {b : Act} (h : Act.Heeds { session := s } b) (hstays : Stays b.told)
    (hsome : s.membership.isSome = true) : b.session.membership.isSome = true := by
  obtain ⟨more, htold, hfollows⟩ := h
  rw [htold] at hstays
  rw [Option.isSome_iff_ne_none]
  intro hnone
  obtain ⟨reason, hmem⟩ := hfollows.guest hsome hnone
  exact hstays.not_left reason hmem

theorem Step.guest (h : Step origin m s t more)
    (hmove : ∀ sender bytes, m ≠ .event (.datagram sender bytes)) (hstays : Stays more) :
    t.membership = s.membership := by
  cases h with
  | accompany membership hdatagram =>
    obtain ⟨sender, bytes, hdatagram⟩ := hdatagram
    exact absurd hdatagram (hmove sender bytes)
  | leave => exact absurd List.mem_cons_self (hstays.not_left _)
  | _ => rfl

theorem Steps.guest (h : Steps origin m s t told)
    (hmove : ∀ sender bytes, m ≠ .event (.datagram sender bytes)) (hstays : Stays told) :
    t.membership = s.membership := by
  induction h with
  | refl => rfl
  | tail _ hstep ih =>
    obtain ⟨hbefore, hlast⟩ := List.forall_mem_append.mp hstays
    exact (hstep.guest hmove hlast).trans (ih hbefore)

/-- A guest remains one until it leaves its network. -/
theorem guest_move (hstays : Stays (s.move m).told) (hsome : s.membership.isSome = true) :
    (s.move m).session.membership.isSome = true := by
  by_cases hdatagram : ∃ sender bytes, m = .event (.datagram sender bytes)
  · obtain ⟨sender, bytes, rfl⟩ := hdatagram
    have hwarns := s.warns (.event (.datagram sender bytes))
    generalize s.move (.event (.datagram sender bytes)) = b at hwarns hstays ⊢
    cases hwarns with
    | heeds hheeds => exact hheeds.guest_kept hstays hsome
  · rw [(steps_move s m).guest (fun sender bytes hm => hdatagram ⟨sender, bytes, hm⟩) hstays]
    exact hsome

namespace Act

theorem left_mem_leave {a : Act} (hnetwork : a.session.inNetwork = true) :
    .changed (.left a.session.leaveReason) ∈ a.leave.told := by
  obtain ⟨ready, notices, hleave⟩ := leave_eq hnetwork
  rw [hleave]
  exact List.mem_concat_self

/-- Calls that are to create no network leave the proxy alone when they begin, but with the
network. -/
theorem hosted_begin_of_stays (a : Act) {begun : Call} (hcreates : begun.creates = false)
    (hstays : Stays (a.begin call begun).told) :
    (a.begin call begun).session.hosted = a.session.hosted := by
  rw [hosted_begin]
  cases begun with
  | operate operation =>
    have hhosts : operation.hosts = false := hcreates
    rw [Call.hosted, Operation.hosted]
    simp [hhosts]
  | leaveNetwork =>
    refine if_neg fun hnetwork => ?_
    have hsent : (a.postInNetwork call (.disconnect 0)).session.inNetwork = true := by
      rw [postInNetwork, if_pos hnetwork]
      exact hnetwork
    exact hstays.not_left _ (List.mem_append_left _ (left_mem_leave hsent))
  | _ => rfl

end Act

/-! ### Sheltered calls -/

namespace Act

theorem calls_begin (a : Act) (begun : Call) :
    (a.begin call begun).session.calls = a.session.calls := by
  have hbegins := a.begins call begun
  generalize a.begin call begun = b at hbegins ⊢
  cases hbegins with
  | finishes hcalm => exact hcalm.calls
  | pauses hcalm => exact hcalm.calls

end Act

/-- A call that is to create a network hosts a proxy when it begins, or has ended. -/
theorem sheltered_begin (hsound : s.Sound) {operation : Operation} (hhosts : operation.hosts = true)
    (hapart : ∀ w ∈ s.waiting, w.pause.creates = false) :
    (s.move (.event (.call (.operate operation)))).session.Sheltered s.calls := by
  let a : Act := { session := { s with calls := s.calls + 1 } }
  show (a.begin s.calls (.operate operation)).session.Sheltered s.calls
  have hbelow : s.calls < (a.begin s.calls (.operate operation)).session.calls := by
    rw [Act.calls_begin]
    exact Nat.lt_succ_self _
  have hold {w : Waiting} (hw : w ∈ s.waiting) : w.id ≠ s.calls :=
    Nat.ne_of_lt (hsound.numbered.below _ (List.mem_map_of_mem hw))
  have hhosted := Act.hosted_begin s.calls a (.operate operation)
  rcases a.waiting_beginOperation s.calls operation with
    ⟨-, -, hwaiting⟩ | ⟨hlink, deadline, pause, hwaiting, hpause⟩
  · have hnone : ∀ w ∈ (a.begin s.calls (.operate operation)).session.waiting,
        w.id ≠ s.calls := fun w hw => hold (hwaiting ▸ hw)
    exact ⟨hbelow, fun w hw hid => absurd hid (hnone w hw),
      fun w hw hid => absurd hid (hnone w hw), fun w hw hid => absurd hid (hnone w hw),
      fun w hw hid => absurd hid (hnone w hw)⟩
  · have hnew {w : Waiting}
        (hw : w ∈ (a.begin s.calls (.operate operation)).session.waiting) :
        w ∈ s.waiting ∨ w = ⟨s.calls, deadline, pause⟩ := by
      have hw : w ∈ (a.beginOperation s.calls operation).session.waiting := hw
      rw [hwaiting] at hw
      exact (List.mem_append.mp hw).imp id List.mem_singleton.mp
    have hkind : pause.creates = true ∧ pause.promised? = none := by
      rcases hpause with rfl | rfl
      · exact ⟨hhosts, rfl⟩
      · exact ⟨operation.creates_pause.trans hhosts, operation.promised?_pause⟩
    refine ⟨hbelow, fun w hw hid => ?_, fun w hw hid v hv hcreates => ?_,
      fun w hw hid hwaits hpermitted => ?_, fun w hw hid hpromised => ?_⟩
    · obtain rfl := (hnew hw).resolve_left fun hw => hold hw hid
      exact hkind.1
    · obtain rfl := (hnew hv).resolve_left fun hv =>
        Bool.false_ne_true ((hapart v hv).symm.trans hcreates)
      rfl
    · have hpermitted' : s.p2p = true :=
        p2p_of_move (m := .event (.call (.operate operation))) hpermitted
      rw [hhosted, Call.hosted, if_neg fun h => hlink ⟨h.1, h.2.1⟩, Operation.hosted, if_pos hhosts,
        if_pos hpermitted']
      rfl
    · obtain rfl := (hnew hw).resolve_left fun hw => hold hw hid
      rw [hkind.2] at hpromised
      exact absurd hpromised Bool.false_ne_true

/-- While no network is left and no other call to create one begins, a call stays sheltered. -/
theorem Sheltered.move (h : s.Sheltered call) (hcoherent : s.Coherent)
    (hstays : Stays (s.move m).told)
    (hapart : ∀ begun, m = .event (.call begun) → begun.creates = true →
      ∀ w ∈ s.waiting, w.pause.creates = false) :
    (s.move m).session.Sheltered call := by
  have hbefore {w : Waiting} (hw : w ∈ (s.move m).session.waiting) (hid : w.id = call) :=
    exists_wait_before hw (hid ▸ h.below)
  have hbegins {w : Waiting} (hw : w ∈ (s.move m).session.waiting) (hid : w.id = call)
      {begun : Call} (hm : m = .event (.call begun)) : begun.creates = false := by
    obtain ⟨v, hv, hid', -, -⟩ := hbefore hw hid
    rw [Bool.eq_false_iff]
    intro hcreates
    have hnone := hapart begun hm hcreates v hv
    exact Bool.false_ne_true (hnone.symm.trans (h.kind v hv (hid'.trans hid)))
  refine ⟨Nat.lt_of_lt_of_le h.below (steps_move s m).calls_le, fun w hw hid => ?_,
    fun w hw hid v hv hcreates => ?_, fun w hw hid hhosts hpermitted => ?_,
    fun w hw hid hpromised => ?_⟩
  · obtain ⟨v, hv, hid', hcreates, -⟩ := hbefore hw hid
    rw [← hcreates]
    exact h.kind v hv (hid'.trans hid)
  · obtain ⟨u, hu, huid, -, -⟩ := hbefore hw hid
    rcases (steps_move s m).continues hv with ⟨v', hv', hid', hcreates', -⟩ | ⟨-, hbegun⟩
    · rw [← hid']
      exact h.alone u hu (huid.trans hid) v' (hv'.elim id id) (hcreates'.trans hcreates)
    · obtain ⟨begun, hm, hcreates⟩ := hbegun hcreates
      exact absurd ((hbegins hw hid hm).symm.trans hcreates) Bool.false_ne_true
  · obtain ⟨v, hv, hid', -, hhosts'⟩ := hbefore hw hid
    have hsome := h.hosted v hv (hid'.trans hid) (hhosts' hhosts) (p2p_of_move hpermitted)
    have hwarns := s.warns m
    generalize hmove : s.move m = b at hwarns hstays hw ⊢
    cases hwarns with
    | heeds hheeds => exact hheeds.hosted_kept hstays hsome
    | alarm =>
      obtain ⟨ready, hraise⟩ := Act.raise_eq { session := s } .relayError
      rw [hraise]
      exact hsome
    | begins begun =>
      rw [← hmove] at hw
      rw [Act.hosted_begin_of_stays _ (hbegins hw hid rfl) hstays]
      exact hsome
    | @resumes own hready =>
      -- Only this call can forget the proxy on its turn, and then it does not wait for it.
      rcases Act.hosted_resume { session := { s with ready := s.ready.erase (.resume own) } } own
        with hsame | ⟨u, hfind, hhosts'', hgone⟩
      · rw [hsame]
        exact hsome
      · have hcreates := Pause.creates_of_hosts hhosts''
        have hown := h.alone v hv (hid'.trans hid) u (List.mem_of_find?_eq_some hfind) hcreates
        have hkey : u.id = own := key_of_find? hfind
        have hnone := hgone w hw (hid.trans (hown.symm.trans hkey))
        exact absurd (hnone.symm.trans hhosts) Bool.false_ne_true
  · obtain ⟨outcome, houtcome⟩ := Option.isSome_iff_exists.mp hpromised
    refine guest_move hstays ?_
    rcases (steps_move s m).of_promised hcoherent hw houtcome with
      ⟨v, hv, hid', hpromised'⟩ | ⟨-, hguest, -⟩
    · exact h.guest v hv (hid'.trans hid) (by rw [hpromised']; rfl)
    · exact hguest

/-! ### Reports -/

theorem Operation.hosts_of_failure {operation : Operation} {yes : Bool}
    (hfailure : operation.failure = .confirmed yes) : yes = false ∧ operation.hosts = true := by
  cases operation with
  | createPublic request advertised => exact ⟨(Outcome.confirmed.inj hfailure).symm, rfl⟩
  | createPrivate request advertised => exact ⟨(Outcome.confirmed.inj hfailure).symm, rfl⟩
  | _ => cases hfailure

/-- A creation that ends as soon as it has begun has failed, and no proxy is hosted. -/
theorem Call.hosted_of_answer {begun : Call} {yes : Bool}
    (hanswer : begun.answer? s = some (.confirmed yes)) : yes = false ∧ begun.hosted s = none := by
  obtain ⟨operation, rfl, hlink, hfailure⟩ := exists_operation_of_answer hanswer rfl
  obtain ⟨hyes, hhosts⟩ := Operation.hosts_of_failure hfailure
  exact ⟨hyes, if_pos ⟨hlink.1, hlink.2, hhosts⟩⟩

/-- A creation that goes on ends with its confirmation, as nobody's guest, or without a proxy. -/
theorem Pause.hosted_of_verdict {pause : Pause} {index : Option Nat} {yes : Bool}
    (hverdict : pause.verdict? s index = some (.confirmed yes)) :
    yes = true ∧ pause = .confirmation ∧ index.isSome = true ∨
      yes = false ∧ pause.hosted s index = none := by
  cases pause with
  | handshake operation =>
    rw [verdict?, Option.ite_none_left_eq_some] at hverdict
    obtain ⟨hungreeted, hfailure⟩ := hverdict
    obtain ⟨hyes, hhosts⟩ := Operation.hosts_of_failure (Option.some.inj hfailure)
    exact .inr ⟨hyes, if_pos ⟨hhosts, hungreeted⟩⟩
  | confirmation =>
    rw [verdict?] at hverdict
    split at hverdict
    · rename_i hindex
      rw [Option.ite_none_left_eq_some] at hverdict
      exact .inl ⟨(Outcome.confirmed.inj (Option.some.inj hverdict.2)).symm, rfl, hindex⟩
    · rename_i hindex
      refine .inr ⟨(Outcome.confirmed.inj (Option.some.inj hverdict)).symm, ?_⟩
      exact if_neg fun h => hindex h.2
  | joinReply =>
    rw [verdict?] at hverdict
    repeat' split at hverdict
    all_goals cases hverdict
  | _ => cases hverdict

/-- What comes of a move in which a call reports whether its network was confirmed. -/
theorem confirmed_cases (hpromised : ∀ w ∈ s.waiting, ∀ outcome,
      w.pause.promised? = some outcome → outcome.isJoined = true) {yes : Bool}
    (hfinished : .finished call (.confirmed yes) ∈ (s.move m).told) :
    yes = false ∧ (s.move m).session.hosted = none ∨
      yes = true ∧ ∃ w ∈ s.waiting, w.id = call ∧
        (w.pause.promised?.isSome = true ∧ (s.move m).session.membership = s.membership ∨
          w.pause = .confirmation ∧
            (s.move m).session.hosted =
              if (s.move m).session.p2p then s.hosted else none) := by
  have hwarns := s.warns m
  generalize s.move m = b at hwarns hfinished ⊢
  cases hwarns with
  | heeds hheeds => exact absurd hfinished (hheeds.not_finished _)
  | alarm =>
    obtain ⟨ready, hraise⟩ := Act.raise_eq { session := s } .relayError
    rw [hraise] at hfinished
    cases hfinished
  | begins begun =>
    rw [← mem_reports, Act.reports_begin] at hfinished
    obtain ⟨hyes, hhosted⟩ := Call.hosted_of_answer (eq_of_mem_toList hfinished).2
    exact .inl ⟨hyes, (Act.hosted_begin _ _ begun).trans hhosted⟩
  | @resumes own hready =>
    rw [← mem_reports, Act.reports_resume] at hfinished
    obtain ⟨rfl, hverdict⟩ := eq_of_mem_toList hfinished
    have hlooks := Act.looks own { session := { s with ready := s.ready.erase (.resume own) } }
    have hp2p : (Act.resume _ own).session.p2p = s.p2p := (Act.clears_resume own
      { session := { s with ready := s.ready.erase (.resume own) } }).p2p
    rw [hverdict] at hlooks
    generalize hsome : some (Outcome.confirmed yes) = verdict at hlooks
    generalize Act.resume _ own = b at hlooks hp2p ⊢
    cases hlooks with
    | still => cases hsome
    | @ends w outcome overlay hfind hpause =>
      obtain rfl := Option.some.inj hsome
      have hw := List.mem_of_find?_eq_some hfind
      rcases hpause with ⟨-, hdone⟩ | ⟨guest, arrived, hpause⟩
      · cases hdone
      · have hgiven : w.pause.promised? = some (.confirmed yes) := by rw [hpause]; rfl
        refine .inr ⟨hpromised w hw _ hgiven, w, hw, key_of_find? hfind, .inl ⟨?_, rfl⟩⟩
        rw [hgiven]
        rfl
    | @goesOn w latches index hfind =>
      rcases Pause.hosted_of_verdict hsome.symm with ⟨hyes, hpause, hindex⟩ | ⟨hyes, hnone⟩
      · refine .inr ⟨hyes, w, List.mem_of_find?_eq_some hfind, key_of_find? hfind, .inr ⟨hpause, ?_⟩⟩
        rw [hp2p, hpause, Act.hosted_goOn, Pause.hosted, hindex]
        simp [Act.endWait, Act.endPause, Act.update]
      · refine .inl ⟨hyes, ?_⟩
        rw [Act.hosted_goOn]
        exact hnone

/-! ### Runs -/

section Runs

variable {settings : Settings} {interfaces : Interfaces} {localAddress : Except IoError Endpoint}

/-- From its beginning on a call that is to create a network is sheltered, while no network is
left. -/
theorem sheltered_after (hcreate : create settings interfaces localAddress = .ok s)
    {before : List Move} {operation : Operation} (hhosts : operation.hosts = true)
    (later : List Move) :
    let run := .event (.call (.operate operation)) :: later
    s.CreatesApart (before ++ run) → Stays ((s.after before).session.after run).told →
    ((s.after before).session.after run).session.Sheltered (s.after before).session.calls := by
  have hsound := (sound_create hcreate).after before
  induction later using List.reverseRecOn with
  | nil =>
    intro run hapart hstays
    exact sheltered_begin hsound hhosts (hapart before _ List.prefix_rfl hhosts)
  | append_singleton later m ih =>
    intro run hapart hstays
    have hrun : run = (.event (.call (.operate operation)) :: later) ++ [m] := rfl
    rw [hrun, after_concat] at hstays ⊢
    rw [hrun, ← List.append_assoc] at hapart
    obtain ⟨hearlier, hlast⟩ := List.forall_mem_append.mp hstays
    have hbefore := ih (fun early call hearly => hapart early call
      (hearly.trans (List.prefix_append ..))) hearlier
    have hcoherent := coherent_after hcreate (before ++ .event (.call (.operate operation)) :: later)
    have hnow := hapart (before ++ .event (.call (.operate operation)) :: later)
    rw [after_append] at hcoherent hnow
    refine hbefore.move hcoherent hlast fun begun hm hcreates => ?_
    exact hnow begun (hm ▸ List.prefix_rfl) hcreates

/-- When a creation reports failure no proxy is hosted. When it reports success, and the session is
neither a guest nor has left a network since the call began, a proxy is hosted just if proxies are
permitted then; for this creations must not overlap. Proxies are permitted until the relay reports
that it cannot reach one, if the settings permit them; from then on no proxy is hosted but the one
there is. -/
theorem hosted_follows_creation (hcreate : create settings interfaces localAddress = .ok s)
    (moves : List Move) :
    let t := (s.after moves).session
    (∀ m call, .finished call (.confirmed false) ∈ (t.move m).told →
      (t.move m).session.hosted = none) ∧
    (∀ before operation later m, moves = before ++ .event (.call (.operate operation)) :: later →
      operation.hosts = true → s.CreatesApart moves →
      .finished (s.after before).session.calls (.confirmed true) ∈ (t.move m).told →
      (t.move m).session.membership = none →
      Stays ((s.after before).session.after
        (.event (.call (.operate operation)) :: later ++ [m])).told →
      (t.move m).session.hosted.isSome = (t.move m).session.p2p) ∧
    t.p2p = (!settings.disableP2p && !(s.after moves).told.any Notice.forbids) ∧
    (t.p2p = false → ∀ later, (t.after later).session.p2p = false ∧
      Inherits t.hosted (t.after later).session.hosted) := by
  intro t
  have hreport {m : Move} {call : Nat} {yes : Bool}
      (hfinished : .finished call (.confirmed yes) ∈ (t.move m).told) :=
    confirmed_cases (fun w hw outcome hpromised => isJoined_of_promised hcreate moves hw hpromised)
      hfinished
  refine ⟨fun m call hfinished => ?_, ?_, p2p_after hcreate moves, inherits_after⟩
  · rcases hreport hfinished with ⟨-, hnone⟩ | ⟨hyes, -⟩
    · exact hnone
    · cases hyes
  · intro before operation later m hmoves hhosts hapart hfinished hguest hstays
    subst hmoves
    rw [after_concat] at hstays
    obtain ⟨hearlier, -⟩ := List.forall_mem_append.mp hstays
    have hsheltered := sheltered_after hcreate hhosts later hapart hearlier
    have ht : t = ((s.after before).session.after
        (.event (.call (.operate operation)) :: later)).session := by
      show (s.after _).session = _
      rw [after_append]
      rfl
    rw [← ht] at hsheltered
    rcases hreport hfinished with ⟨hyes, -⟩ | ⟨-, w, hw, hid, ⟨hpromised, hsame⟩ | ⟨hpause, hhosted⟩⟩
    · cases hyes
    · have hsome := hsheltered.guest w hw hid hpromised
      rw [← hsame, hguest] at hsome
      cases hsome
    · rw [hhosted]
      cases hpermitted : (t.move m).session.p2p with
      | true => exact hsheltered.hosted w hw hid (by rw [hpause]; rfl) (p2p_of_move hpermitted)
      | false => rfl

end Runs

/-- A station asks for a network of its own. -/
def creatingRun : List Move :=
  [sampleCall (.createPublic default []), sampleDatagram (.hello default), .turn (.resume 0)]

def Notice.creation? : Notice → Option (Nat × Bool)
  | finished call (.confirmed yes) => some (call, yes)
  | _ => none

theorem mem_of_creation? {told : List Notice} {yes : Bool}
    (hfound : told.findSome? Notice.creation? = some (call, yes)) :
    .finished call (.confirmed yes) ∈ told := by
  obtain ⟨notice, hmem, hnotice⟩ := List.exists_of_findSome?_eq_some hfound
  cases notice with
  | finished own outcome =>
    cases outcome with
    | confirmed given =>
      obtain ⟨rfl, rfl⟩ := Prod.mk.inj (Option.some.inj hnotice)
      exact hmem
    | _ => cases hnotice
  | _ => cases hnotice

/-- The network is confirmed, and its proxy is still hosted. -/
theorem hosted_follows_creation_of_creatingRun :
    let moves := creatingRun ++ [sampleDatagram (.connected default)]
    let u := ((sample.after moves).session.move (.turn (.resume 0))).session
    create {} (.ok []) (.ok sampleAddress) = .ok sample ∧
      .finished 0 (.confirmed true) ∈
        ((sample.after moves).session.move (.turn (.resume 0))).told ∧
      u.membership = none ∧ u.p2p = true ∧ u.hosted.isSome = u.p2p := by
  intro moves u
  have hcreate : create {} (.ok []) (.ok sampleAddress) = .ok sample := rfl
  have hconfirmed : sample.after moves = _ :=
    after_sampleDatagram_of_not_seats creatingRun (by decide +kernel) (by decide +kernel)
      (by decide +kernel) (by decide +kernel)
  have hfinished : .finished 0 (.confirmed true) ∈
      ((sample.after moves).session.move (.turn (.resume 0))).told := by
    apply mem_of_creation?
    rw [hconfirmed]
    decide +kernel
  have hapart : sample.CreatesApart moves := by
    intro early call hearly hcreates
    rcases early with _ | ⟨first, _ | ⟨second, _ | ⟨third, _ | ⟨fourth, early⟩⟩⟩⟩
    · exact List.forall_mem_nil _
    all_goals
      obtain ⟨rest, hrest⟩ := hearly
      simp [moves, creatingRun, sampleCall, sampleDatagram] at hrest
  have hlast : u = ((sample.after moves).session.move (.turn (.resume 0))).session := rfl
  have hguest : u.membership = none := by
    apply Option.isNone_iff_eq_none.mp
    rw [hlast, hconfirmed]
    decide +kernel
  have hstays : Stays ((sample.after []).session.after (moves ++ [.turn (.resume 0)])).told := by
    have hnone : (sample.after (moves ++ [.turn (.resume 0)])).told.any Notice.isDeparture =
        false := by
      rw [after_concat, hconfirmed]
      decide +kernel
    intro notice hmem
    exact Bool.eq_false_iff.mpr (List.any_eq_false.mp hnone notice hmem)
  have hpermitted : u.p2p = true := by
    rw [hlast, hconfirmed]
    decide +kernel
  refine ⟨hcreate, hfinished, hguest, hpermitted, ?_⟩
  exact (hosted_follows_creation hcreate moves).2.1 [] (.createPublic default []) _ _ rfl rfl hapart
    hfinished hguest hstays

end LocalPlay.Session
