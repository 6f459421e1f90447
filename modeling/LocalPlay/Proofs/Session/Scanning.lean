import LocalPlay.Proofs.Session.Advertising
import LocalPlay.Proofs.Session.Answers

/-!
# What scans find

A scan forgets the networks that were found before, and gathers those it is told of from its
beginning to its end; the end of the answers it forgets only when it asks, which is after the
handshake if there has to be one. So where it finds anything it finds all that it was told of, in
this order, and has been told of the end since it asked; and if it is told of the end, and sees no
error, it does. Only another scan could make it forget something: with one scan at a time nothing is
lost.
-/

namespace LocalPlay.Session

open Net Wire Overlay Timing

/-- The pause belongs to a scan. -/
def Pause.scans : Pause → Bool
  | handshake (.scan _) | scanReplies => true
  | _ => false

/-- No scan begins while there is another. -/
def ScansApart (s : Session) (moves : List Move) : Prop :=
  ∀ early filter, early ++ [.event (.call (.operate (.scan filter)))] <+: moves →
    ∀ w ∈ (s.after early).session.waiting, w.pause.scans = false

/-- A scan has asked in one move of the run, and has waited for the answer since. -/
def Asked (s : Session) (moves : List Move) (call : Nat) (filter : ScanFilter) (w : Waiting) :
    Prop :=
  ∃ before asking later, moves = before ++ asking :: later ∧
    (s.after before).session.Asks asking call (.scan filter) .scanEnd ∧
    w.deadline = some ((s.after before).session.clock + s.timeouts.scan) ∧
    ∀ between, between <+: later → w ∈ (s.after (before ++ asking :: between)).session.waiting

variable {s : Session} {m : Move} {moves later : List Move} {v w : Waiting} {filter : ScanFilter}

/-- Who still waits after another move has waited since he asked. -/
theorem Asked.concat {call : Nat} (h : s.Asked moves call filter w)
    (hw : w ∈ (s.after (moves ++ [m])).session.waiting) : s.Asked (moves ++ [m]) call filter w := by
  obtain ⟨before, asking, later, rfl, hasks, hdeadline, hsince⟩ := h
  refine ⟨before, asking, later ++ [m], by simp, hasks, hdeadline, fun between hbetween => ?_⟩
  rcases List.prefix_concat_iff.mp hbetween with rfl | hbetween
  · rwa [List.append_assoc, List.cons_append] at hw
  · exact hsince between hbetween

/-! ### Asking -/

/-- A scan that finds the link open asks at once. -/
theorem Act.operate_scan (a : Act) (call : Nat) (filter : ScanFilter) :
    (∃ refusal, .posted (some call) .relay (.scan filter) refusal ∈
      (a.operate call (.scan filter)).told) ∧
    (a.operate call (.scan filter)).session.latches.isRaised .scanEnd = false := by
  obtain ⟨deadline, refusal, hasked⟩ := (a.updatePassphrase call).asked_eq call (.scan filter)
  rw [operate_eq, hasked]
  refine ⟨⟨refusal, List.mem_append_right _ List.mem_cons_self⟩, ?_⟩
  simp [Operation.lowered]

/-- A scan that waits for replies when it has begun has asked. -/
theorem asks_of_begun (hsound : s.Sound)
    (hv : v ∈ (s.move (.event (.call (.operate (.scan filter))))).session.waiting)
    (hid : v.id = s.calls) (hpause : v.pause = .scanReplies) :
    s.Asks (.event (.call (.operate (.scan filter)))) s.calls (.scan filter) .scanEnd := by
  let a : Act := { session := { s with calls := s.calls + 1 } }
  have hmove : s.move (.event (.call (.operate (.scan filter)))) =
      a.beginOperation s.calls (.scan filter) := rfl
  have hold : v ∉ s.waiting := fun hv => hsound.not_yet hv hid
  obtain ⟨networks, idle, ready, hosted, hprepare⟩ := a.session_prepare (.scan filter)
  rw [Act.beginOperation_eq] at hmove
  rw [hmove] at hv
  split at hmove
  · obtain ⟨hposted, hlowered⟩ := (a.prepare (.scan filter)).operate_scan s.calls filter
    refine ⟨?_, ?_⟩
    · rwa [hmove]
    · rwa [hmove]
  · rename_i hidle
    rw [if_neg hidle] at hv
    split at hv
    · have hv : v ∈ (a.prepare (.scan filter)).session.waiting := hv
      rw [hprepare] at hv
      exact absurd hv hold
    · have hv : v ∈ (a.prepare (.scan filter)).session.waiting ++ [_] := hv
      rw [hprepare] at hv
      rcases List.mem_append.mp hv with hv | hv
      · exact absurd hv hold
      · rw [List.mem_singleton.mp hv] at hpause
        cases hpause

/-- A scan that waits for replies after the handshake has asked. -/
theorem asks_of_resumed (hnumbered : Numbered (s.waiting.map (·.id)) s.calls) (hw : w ∈ s.waiting)
    (hbefore : w.pause = .handshake (.scan filter))
    (hv : v ∈ (s.move (.turn (.resume w.id))).session.waiting) (hid : v.id = w.id)
    (hpause : v.pause = .scanReplies) :
    s.Asks (.turn (.resume w.id)) w.id (.scan filter) .scanEnd := by
  have hother : v ∉ s.waiting := fun hv => by
    rw [hnumbered.eq_of_id hv hw hid, hbefore] at hpause
    cases hpause
  have hnew : v ∉ s.waiting.filter (·.id ≠ w.id) := fun hv => hother (List.mem_filter.mp hv).1
  have hready : .resume w.id ∈ s.ready := by
    by_contra hready
    rw [move, if_neg hready] at hv
    exact hother hv
  have hmove : s.move (.turn (.resume w.id)) = Act.resume _ w.id := if_pos hready
  have hlooks := Act.looks w.id { session := { s with ready := s.ready.erase (.resume w.id) } }
  suffices hasks : (∃ refusal, .posted (some w.id) .relay (.scan filter) refusal ∈
      (s.move (.turn (.resume w.id))).told) ∧
      (s.move (.turn (.resume w.id))).session.latches.isRaised .scanEnd = false from
    ⟨hasks.1, hasks.2⟩
  rw [hmove] at hv ⊢
  generalize Session.verdict? _ w.id = verdict at hlooks
  generalize Act.resume _ w.id = b at hlooks hv ⊢
  cases hlooks with
  | still => exact absurd hv hother
  | ends => exact absurd hv hnew
  | @goesOn own latches index hfind =>
    obtain rfl : w = own := Option.some.inj ((hnumbered.find?_eq hw).symm.trans hfind)
    rw [hbefore, Act.goOn] at hv ⊢
    split at hv
    · rename_i hgreeted
      rw [if_pos hgreeted]
      exact Act.operate_scan _ w.id filter
    · exact absurd hv hnew

/-- Who is to scan waits for the handshake, or has asked. -/
theorem wait_of_scan (hsound : s.Sound) (h : s.Awaits (.operate (.scan filter)) later w) :
    w.pause = .handshake (.scan filter) ∨ w.pause = .scanReplies ∧
      s.Asked (.event (.call (.operate (.scan filter))) :: later) s.calls filter w := by
  induction h with
  | @begins w timeout hw hid hfirst hdeadline =>
    generalize hpause : w.pause = pause at hfirst
    cases hfirst with
    | handshake => exact .inl rfl
    | operate =>
      refine .inr ⟨rfl, [], _, [], rfl, asks_of_begun hsound hw hid hpause, hdeadline, ?_⟩
      intro between hbetween
      rwa [List.prefix_nil.mp hbetween]
  | @staysOn later m v w h hw hbare ih =>
    have hawaited : v.pause.awaited ≠ [] := by
      rcases ih with hpause | ⟨hpause, -⟩
      · rw [hpause]; exact List.cons_ne_nil _ _
      · rw [hpause]; exact List.cons_ne_nil _ _
    obtain rfl := Waiting.eq_of_bare hawaited hbare
    exact ih.imp_right fun ⟨hpause, hasked⟩ => ⟨hpause, hasked.concat hw⟩
  | @goesOn later v w timeout h hw hid hnext hdeadline ih =>
    have hbefore : v.pause = .handshake (.scan filter) := by
      rcases ih with hpause | ⟨hpause, -⟩
      · exact hpause
      · rw [hpause] at hnext
        rcases hnext.cases with ⟨operation, hhandshake, -⟩ | ⟨hconfirmed, -⟩
        · cases hhandshake
        · cases hconfirmed
    rcases hnext.cases with ⟨operation, hhandshake, hpause, rfl⟩ | ⟨hconfirmed, -⟩
    · obtain rfl := Pause.handshake.inj (hbefore.symm.trans hhandshake)
      have hlast := hw
      rw [← List.cons_append, after_concat, hid, ← h.id_eq] at hlast
      have hasks := asks_of_resumed (hsound.after _).numbered h.mem hbefore hlast
        (hid.trans h.id_eq.symm) hpause
      rw [h.id_eq] at hasks
      refine .inr ⟨hpause, _, .turn (.resume w.id), [], rfl, hid ▸ hasks, hdeadline, ?_⟩
      intro between hbetween
      rwa [List.prefix_nil.mp hbetween]
    · rw [hbefore] at hconfirmed
      cases hconfirmed

/-- Who waits for replies does so until he is told what he comes to. -/
theorem waits_for_replies (hsound : s.Sound) (h : s.Awaits (.operate (.scan filter)) later w)
    {between : List Move} (hbetween : between <+: later)
    (hwaits : (s.after (.event (.call (.operate (.scan filter))) :: between)).session.Waits s.calls
      .scanReplies) : w.pause = .scanReplies := by
  obtain ⟨v, hv, hid, hpause⟩ := hwaits
  have hwhole {w : Waiting} (h : s.Awaits (.operate (.scan filter)) between w) :
      w.pause = .scanReplies := by
    rwa [(hsound.after _).numbered.eq_of_id h.mem hv (h.id_eq.trans hid.symm)]
  induction h with
  | begins hw hid hfirst hdeadline =>
    obtain rfl := List.prefix_nil.mp hbetween
    exact hwhole (.begins hw hid hfirst hdeadline)
  | staysOn h hw hbare ih =>
    rcases List.prefix_concat_iff.mp hbetween with rfl | hbefore
    · exact hwhole (.staysOn h hw hbare)
    · have hearlier := ih hbefore
      have hawaited := congrArg Pause.awaited hearlier
      rwa [Waiting.eq_of_bare (by rw [hawaited]; exact List.cons_ne_nil _ _) hbare]
  | goesOn h hw hid hnext hdeadline ih =>
    rcases List.prefix_concat_iff.mp hbetween with rfl | hbefore
    · exact hwhole (.goesOn h hw hid hnext hdeadline)
    · rw [ih hbefore] at hnext
      rcases hnext.cases with ⟨operation, hhandshake, -⟩ | ⟨hconfirmed, -⟩
      · cases hhandshake
      · cases hconfirmed

/-! ### One scan at a time -/

theorem Pause.scans_plan (pause : Pause) : pause.plan.scans = pause.scans := by
  cases pause with
  | _ => rfl

theorem Waiting.scans_of_bare (hbare : v.bare = w.bare) : v.pause.scans = w.pause.scans := by
  rw [← v.pause.scans_plan, ← w.pause.scans_plan]
  exact congrArg (·.pause.scans) hbare

theorem Call.First.exists_scan {timeouts : Timeouts} {call : Call} {timeout : Option Nat}
    {pause : Pause} (h : call.First timeouts timeout pause) (hscans : pause.scans = true) :
    ∃ filter, call = .operate (.scan filter) := by
  cases h with
  | handshake operation =>
    cases operation with
    | scan filter => exact ⟨filter, rfl⟩
    | _ => cases hscans
  | operate operation =>
    cases operation with
    | scan filter => exact ⟨filter, rfl⟩
    | _ => cases hscans
  | _ => cases hscans

theorem Pause.Next.scans {timeouts : Timeouts} {before pause : Pause} {timeout : Nat}
    (h : before.Next timeouts timeout pause) (hscans : pause.scans = true) :
    before.scans = true := by
  cases h with
  | operate operation =>
    cases operation with
    | scan filter => rfl
    | _ => cases hscans
  | awaitAddress => cases hscans

/-- To ask for a scan is the scan's first move, or follows upon its handshake. -/
theorem asker_of_scan {caller : Option Nat} {target : Target} {refusal : Option SendError}
    (hsent : .posted caller target (.scan filter) refusal ∈ (s.move m).told) :
    m = .event (.call (.operate (.scan filter))) ∨
      ∃ w ∈ s.waiting, w.pause = .handshake (.scan filter) ∧ m = .turn (.resume w.id) := by
  obtain ⟨before, after, htold⟩ := List.append_of_mem hsent
  obtain ⟨told, first, last, more, t, u, -, hstep, -, -⟩ := (steps_move s m).split htold
  obtain ⟨call, operation, -, -, hrequest, -, hmove⟩ :=
    hstep.requests (List.mem_append_right _ List.mem_cons_self) rfl
  obtain rfl : operation = .scan filter := by
    cases operation with
    | scan other => rw [Packet.scan.inj hrequest]
    | _ => cases hrequest
  rcases hmove with ⟨hmove, -⟩ | ⟨w, hw, rfl, hpause, hmove⟩
  · exact .inl hmove
  · exact .inr ⟨w, hw, hpause, hmove⟩

/-! ### Gathering -/

/-- The networks that were found are those that were told of since they were forgotten. -/
theorem networks_after_scan (halone : ∀ middle m rest, later = middle ++ m :: rest →
      ∀ other, m ≠ .event (.call (.operate (.scan other)))) :
    (s.after (.event (.call (.operate (.scan filter))) :: later)).session.networks =
      (s.after (.event (.call (.operate (.scan filter))) :: later)).told.filterMap
        Notice.found? := by
  induction later using List.reverseRecOn with
  | nil => exact (s.notes_move (.event (.call (.operate (.scan filter))))).networks
  | append_singleton later m ih =>
    obtain ⟨hearlier, hlast⟩ := forall_split_concat.mp halone
    let t := (s.after (.event (.call (.operate (.scan filter))) :: later)).session
    have hkept : (t.forget m).networks = t.networks := by
      rcases t.forget_cases m with hforget | ⟨other, hmove, -⟩ | ⟨removal, -, hforget⟩
      · rw [hforget]
      · exact absurd hmove (hlast other)
      · rw [hforget]
    rw [← List.cons_append, after_concat, Act.next, Act.followedBy, List.filterMap_append,
      ← ih hearlier, ← hkept]
    exact (t.notes_move m).networks

/-- With one scan at a time none begins before this one has ended. -/
theorem alone_of_scansApart (hsound : s.Sound)
    (happart : s.ScansApart (.event (.call (.operate (.scan filter))) :: later))
    (h : s.Awaits (.operate (.scan filter)) later w) {middle rest : List Move}
    (hlater : later = middle ++ m :: rest)
    (other : ScanFilter) : m ≠ .event (.call (.operate (.scan other))) := by
  rintro rfl
  have hmiddle : middle <+: later := hlater ▸ List.prefix_append _ _
  obtain ⟨v, hv⟩ := h.exists_earlier hmiddle
  have hscans : v.pause.scans = true := by
    rcases wait_of_scan hsound hv with hpause | ⟨hpause, -⟩
    · rw [hpause]; rfl
    · rw [hpause]; rfl
  have hidle := happart (.event (.call (.operate (.scan filter))) :: middle) other
    ⟨rest, by rw [hlater]; simp⟩ v hv.mem
  exact Bool.false_ne_true (hidle.symm.trans hscans)

/-- With one scan at a time nobody else waits for what scans wait for. -/
theorem own_of_scansApart (hsound : s.Sound)
    (happart : s.ScansApart (.event (.call (.operate (.scan filter))) :: later))
    (h : s.Awaits (.operate (.scan filter)) later w) {between : List Move}
    (hbetween : between <+: later)
    (hv : v ∈ (s.after (.event (.call (.operate (.scan filter))) :: between)).session.waiting)
    (hscans : v.pause.scans = true) : v.id = s.calls := by
  induction between using List.reverseRecOn generalizing v with
  | nil =>
    have hbegun : v ∈ (s.move (.event (.call (.operate (.scan filter))))).session.waiting := hv
    cases arises hbegun with
    | @before w hw hbare =>
      have hidle := happart [] filter ⟨later, rfl⟩ w hw
      rw [← Waiting.scans_of_bare hbare] at hidle
      exact absurd (hidle.symm.trans hscans) Bool.false_ne_true
    | begins _ hid => exact hid
    | goesOn hmove => cases hmove
  | append_singleton between m ih =>
    have hearlier : between <+: later := (List.prefix_append _ _).trans hbetween
    rw [← List.cons_append, after_concat] at hv
    have hfrom : Arises _ m v := arises hv
    cases hfrom with
    | @before w hw hbare =>
      rw [Waiting.id_of_bare hbare]
      exact ih hearlier hw ((Waiting.scans_of_bare hbare).symm.trans hscans)
    | begins hmove _ hfirst =>
      obtain ⟨other, rfl⟩ := hfirst.exists_scan hscans
      obtain ⟨rest, hlater⟩ := hbetween
      rw [List.append_assoc] at hlater
      exact absurd hmove (alone_of_scansApart hsound happart h hlater.symm other)
    | goesOn _ hw hid hnext => exact hid.symm.trans (ih hearlier hw (hnext.scans hscans))

theorem ended_forget (s : Session) (m : Move) :
    (s.forget m).latches.isRaised .scanEnd = s.latches.isRaised .scanEnd := by
  rcases s.forget_cases m with hforget | ⟨other, -, hforget⟩ | ⟨removal, -, hforget⟩
  · rw [hforget]
  · rw [hforget]
  · rw [hforget]
    simp

/-- The end that comes while a scan waits for replies is there as long as it waits. -/
theorem ended_of_handled (hsound : s.Sound) {middle rest : List Move} {n : Move}
    (happart : s.ScansApart (.event (.call (.operate (.scan filter))) :: (middle ++ n :: rest)))
    (h : s.Awaits (.operate (.scan filter)) (middle ++ n :: rest) w)
    (hwaits : (s.after (.event (.call (.operate (.scan filter))) :: middle)).session.Waits s.calls
      .scanReplies)
    (hhandled : ∃ sender, .handled sender .scanEnd ∈
      ((s.after (.event (.call (.operate (.scan filter))) :: middle)).session.move n).told)
    {part : List Move} (hpart : part <+: rest) :
    (s.after (.event (.call (.operate (.scan filter))) :: (middle ++ n :: part))
      ).session.latches.isRaised .scanEnd = true := by
  induction part using List.reverseRecOn with
  | nil =>
    let t := (s.after (.event (.call (.operate (.scan filter))) :: middle)).session
    rw [← List.cons_append, after_concat]
    refine ((t.notes_move n).kept (.inr hhandled)).resolve_right ?_
    -- To ask is no answer.
    rintro ⟨caller, other, refusal, hsent⟩
    obtain ⟨sender, hhandled⟩ := hhandled
    rcases asker_of_scan hsent with rfl | ⟨v, -, -, rfl⟩
    · exact not_handled_of_not_opened rfl _ _ hhandled
    · exact not_handled_of_not_opened rfl _ _ hhandled
  | append_singleton part m ih =>
    have hearlier : part <+: rest := (List.prefix_append _ _).trans hpart
    have hlater : middle ++ n :: part <+: middle ++ n :: rest :=
      (List.prefix_append_right_inj middle).mpr (List.cons_prefix_cons.mpr ⟨rfl, hearlier⟩)
    let t := (s.after (.event (.call (.operate (.scan filter))) :: (middle ++ n :: part))).session
    have hraised : (t.forget m).latches.isRaised .scanEnd = true := by
      rw [ended_forget]
      exact ih hearlier
    have hlast : .event (.call (.operate (.scan filter))) :: (middle ++ n :: (part ++ [m])) =
        .event (.call (.operate (.scan filter))) :: (middle ++ n :: part) ++ [m] := by simp
    rw [hlast, after_concat]
    refine ((t.notes_move m).kept (.inl hraised)).resolve_right ?_
    rintro ⟨caller, other, refusal, hsent⟩
    rcases asker_of_scan hsent with hmove | ⟨v, hv, hpause, -⟩
    · obtain ⟨last, rfl⟩ := hpart
      have hsplit : middle ++ n :: (part ++ [m] ++ last) = (middle ++ n :: part) ++ m :: last := by
        simp
      exact alone_of_scansApart hsound happart h hsplit other hmove
    · -- Only this scan would ask now, and it has.
      have hid := own_of_scansApart hsound happart h hlater hv (by rw [hpause]; rfl)
      have hreplies :=
        waits_for_replies hsound (awaits hsound hv hid) (List.prefix_append _ _) hwaits
      cases hpause.symm.trans hreplies

theorem ScansApart.after {early : List Move} (h : s.ScansApart (early ++ moves)) :
    (s.after early).session.ScansApart moves := by
  rintro middle other ⟨rest, hmoves⟩
  have hidle := h (early ++ middle) other ⟨rest, by simp [← hmoves]⟩
  rwa [after_append] at hidle

/-! ### The end -/

/-- A scan finds nothing, or everything, and then it has seen the end and no error. -/
theorem Pause.networks_of_verdict {pause : Pause} {index : Option Nat} {outcome : Outcome}
    (hpause : pause = .handshake (.scan filter) ∨ pause = .scanReplies)
    (hverdict : pause.verdict? s index = some outcome) :
    outcome = .networks [] ∨
      outcome = .networks s.networks ∧ pause = .scanReplies ∧ index = some 0 ∧
        s.lastError = .none := by
  rcases hpause with rfl | rfl
  · rw [verdict?, Option.ite_none_left_eq_some] at hverdict
    exact .inl (Option.some.inj hverdict.2).symm
  · obtain rfl := Option.some.inj hverdict
    split
    · rename_i hfound
      exact .inr ⟨rfl, rfl, hfound⟩
    · exact .inl rfl

/-- A scan that waits for replies finds everything if the end is there and no error is stored. -/
theorem eq_networks_of_verdict (hnumbered : Numbered (s.waiting.map (·.id)) s.calls)
    (hw : w ∈ s.waiting) (hpause : w.pause = .scanReplies)
    (hended : s.latches.isRaised .scanEnd = true) (hnone : s.lastError = .none)
    {outcome : Outcome} (hverdict : s.verdict? w.id = some outcome) :
    outcome = .networks s.networks := by
  obtain ⟨v, hv, hid, hcases⟩ := exists_pause_of_verdict hverdict
  obtain rfl : v = w := hnumbered.eq_of_id hv hw hid
  rcases hcases with ⟨hcleanup, -⟩ | hpromised | ⟨index, hverdict, hadmits⟩
  · cases hpause.symm.trans hcleanup
  · rw [hpause] at hpromised
    cases hpromised
  · obtain rfl := hadmits.eq_zero (by rw [hpause]; rfl) hended
    rw [hpause] at hverdict
    obtain rfl := Option.some.inj hverdict
    rw [if_pos ⟨rfl, hnone⟩]

/-- What a scan comes to that has begun: nothing, or what was found, after it has asked, if the end
is there and no error is stored. -/
theorem scan_cases (hsound : s.Sound) {outcome : Outcome}
    (hfinished : .finished s.calls outcome ∈
      ((s.after (.event (.call (.operate (.scan filter))) :: later)).session.move m).told) :
    let u := (s.after (.event (.call (.operate (.scan filter))) :: later)).session
    outcome = .networks [] ∨ outcome = .networks u.networks ∧
      ∃ w, s.Awaits (.operate (.scan filter)) later w ∧
        s.Asked (.event (.call (.operate (.scan filter))) :: later) s.calls filter w ∧
        u.latches.isRaised .scanEnd = true ∧ u.lastError = .none := by
  intro u
  rcases finished_cases hfinished with ⟨begun, -, hcall, -⟩ | ⟨-, hverdict⟩
  · exact absurd hcall (Nat.ne_of_lt (s.calls_lt_after _ later))
  · obtain ⟨w, hw, hid, hcases⟩ := exists_pause_of_verdict hverdict
    have hawaits := awaits hsound hw hid
    have hwait := wait_of_scan hsound hawaits
    have hpause := hwait.imp_right And.left
    rcases hcases with ⟨hcleanup, -⟩ | hpromised | ⟨index, hverdict, hadmits⟩
    · rcases hpause with hpause | hpause
      · cases hpause.symm.trans hcleanup
      · cases hpause.symm.trans hcleanup
    · rcases hpause with hpause | hpause
      · rw [hpause] at hpromised
        cases hpromised
      · rw [hpause] at hpromised
        cases hpromised
    · refine (Pause.networks_of_verdict hpause hverdict).imp_right fun h => ?_
      obtain ⟨houtcome, hreplies, rfl, hnone⟩ := h
      refine ⟨houtcome, w, hawaits, ?_, ?_, hnone⟩
      · rcases hwait with hhandshake | ⟨-, hasked⟩
        · cases hhandshake.symm.trans hreplies
        · exact hasked
      · cases hadmits with
        | fired hsignal hraised =>
          rw [hreplies] at hsignal
          obtain rfl := Option.some.inj hsignal
          exact hraised

/-- A scan that is told of the end while it waits for replies, and sees no error, finds
everything. -/
theorem eq_networks_of_ended (hsound : s.Sound) {middle rest : List Move} {n : Move}
    (happart : s.ScansApart (.event (.call (.operate (.scan filter))) :: (middle ++ n :: rest)))
    (hwaits : (s.after (.event (.call (.operate (.scan filter))) :: middle)).session.Waits s.calls
      .scanReplies)
    (hhandled : ∃ sender, .handled sender .scanEnd ∈
      ((s.after (.event (.call (.operate (.scan filter))) :: middle)).session.move n).told)
    (hnone : (s.after (.event (.call (.operate (.scan filter))) :: (middle ++ n :: rest))
      ).session.lastError = .none) {outcome : Outcome}
    (hfinished : .finished s.calls outcome ∈ ((s.after
      (.event (.call (.operate (.scan filter))) :: (middle ++ n :: rest))).session.move m).told) :
    outcome = .networks ((s.after (.event (.call (.operate (.scan filter))) ::
      (middle ++ n :: rest))).told.filterMap Notice.found?) := by
  rcases finished_cases hfinished with ⟨begun, -, hcall, -⟩ | ⟨-, hverdict⟩
  · exact absurd hcall (Nat.ne_of_lt (s.calls_lt_after _ _))
  · obtain ⟨w, hw, hid, -⟩ := exists_pause_of_verdict hverdict
    have hawaits := awaits hsound hw hid
    have hreplies := waits_for_replies hsound hawaits (List.prefix_append _ _) hwaits
    have hended := ended_of_handled hsound happart hawaits hwaits hhandled List.prefix_rfl
    rw [← hid] at hverdict
    rw [eq_networks_of_verdict (hsound.after _).numbered hw hreplies hended hnone hverdict]
    exact congrArg Outcome.networks <| networks_after_scan fun _ _ _ hlater =>
      alone_of_scansApart hsound happart hawaits hlater

/-- In a run with one scan at a time a scan comes to nothing, or to all networks that it was told of
from its beginning to its end, in this order. The latter only if it was told of the end after it had
asked, and in time, and no error is outstanding when it ends. And then it does come to all of them,
if it is told of the end while it waits for the replies. -/
theorem scans_gather_answers {origin : Session} {settings : Settings} {interfaces : Interfaces}
    {localAddress : Except IoError Endpoint}
    (hcreate : create settings interfaces localAddress = .ok origin) (early : List Move)
    (filter : ScanFilter) (before : List Move) (m : Move) (outcome : Outcome)
    (hbegun : [.event (.call (.operate (.scan filter)))] <+: before ++ [m])
    (happart : origin.ScansApart (early ++ before)) :
    let s := (origin.after early).session
    .finished s.calls outcome ∈ ((s.after before).session.move m).told →
      (outcome = .networks [] ∨
        outcome = .networks ((s.after before).told.filterMap Notice.found?) ∧
        s.Answered before s.calls (.scan filter) .scanEnd settings.timeouts.scan ∧
        ∀ error, error ≠ .none → ¬ origin.Outstanding (early ++ before) error) ∧
      ((∃ middle n rest, before = middle ++ n :: rest ∧
          (s.after middle).session.Waits s.calls .scanReplies ∧
          ∃ sender, .handled sender .scanEnd ∈ ((s.after middle).session.move n).told) →
        (∀ error, error ≠ .none → ¬ origin.Outstanding (early ++ before) error) →
        outcome = .networks ((s.after before).told.filterMap Notice.found?)) := by
  intro s hfinished
  have hfresh : origin.lastError = .none ∧ origin.timeouts = settings.timeouts := by
    obtain ⟨relay, rfl⟩ := create_eq hcreate
    exact ⟨rfl, rfl⟩
  have horigin := sound_create hcreate
  have hsound : s.Sound := horigin.after early
  have htimeouts : s.timeouts = settings.timeouts := (timeouts_after origin early).trans hfresh.2
  cases before with
  | nil =>
    -- The scan ends as soon as it has begun.
    obtain rfl := (List.cons_prefix_cons.mp hbegun).1
    refine ⟨.inl ?_, ?_⟩
    · rcases finished_cases hfinished with ⟨begun, hmove, -, hanswer⟩ | ⟨hmove, -⟩
      · cases hmove
        rw [Call.answer?, Option.ite_none_right_eq_some] at hanswer
        exact (Option.some.inj hanswer.2).symm
      · cases hmove
    · rintro ⟨middle, n, rest, hmoves, -⟩
      exact absurd hmoves.symm (List.append_ne_nil_of_right_ne_nil _ (by simp))
  | cons first later =>
    obtain rfl := (List.cons_prefix_cons.mp hbegun).1
    refine ⟨(scan_cases hsound hfinished).imp_right fun h => ?_, ?_⟩
    · obtain ⟨houtcome, w, hawaits, hasked, hraised, hnone⟩ := h
      obtain ⟨before, asking, rest, hmoves, hasks, hdeadline, hsince⟩ := hasked
      refine ⟨?_, ?_, (lastError_eq_none_iff horigin hfresh.1).mp hnone⟩
      · rw [houtcome]
        exact congrArg Outcome.networks <| networks_after_scan fun _ _ _ hlater =>
          alone_of_scansApart hsound happart.after hawaits hlater
      · rw [hmoves] at hraised ⊢
        rw [← htimeouts]
        exact answered_of_raised rfl hasks hsince hdeadline hraised
    · rintro ⟨middle, n, rest, hmoves, hwaits, hhandled⟩ hclear
      have hnone := (lastError_eq_none_iff horigin hfresh.1).mpr hclear
      cases middle with
      | nil =>
        obtain ⟨w, hw, hid, -⟩ := hwaits
        exact absurd hid (hsound.not_yet hw)
      | cons first middle =>
        obtain ⟨rfl, rfl⟩ := List.cons_eq_cons.mp hmoves
        exact eq_networks_of_ended hsound happart.after hwaits hhandled hnone hfinished

/-- A scan opens the link, asks, and is told of a network and of the end. -/
def scanningRun : List Move :=
  [sampleCall (.scan default), sampleDatagram (.hello default), .turn (.resume 0)] ++
    [sampleDatagram (.scanReply default)] ++ [sampleDatagram .scanEnd]

def Outcome.networks? : Outcome → Option (List NetworkInfo)
  | networks found => some found
  | _ => none

/-- The network is found. -/
theorem networks_of_scanningRun :
    create {} (.ok []) (.ok sampleAddress) = .ok sample ∧ sample.ScansApart scanningRun ∧
      .finished 0 (.networks [default]) ∈
        ((sample.after scanningRun).session.move (.turn (.resume 0))).told ∧
      (sample.after scanningRun).told.filterMap Notice.found? = [default] ∧
      sample.Answered scanningRun 0 (.scan default) .scanEnd ({} : Settings).timeouts.scan := by
  have hcreate : create {} (.ok []) (.ok sampleAddress) = .ok sample := rfl
  have hreply : sample.after ([sampleCall (.scan default), sampleDatagram (.hello default),
      .turn (.resume 0)] ++ [sampleDatagram (.scanReply default)]) = _ :=
    after_sampleDatagram _ (by decide +kernel) (by decide +kernel) (by decide +kernel)
      (by decide +kernel)
  have hend : sample.after scanningRun = _ :=
    after_sampleDatagram _ (by decide +kernel) (by rw [hreply]; decide +kernel)
      (by rw [hreply]; decide +kernel) (by rw [hreply]; decide +kernel)
  have hfinished : .finished 0 (.networks [default]) ∈
      ((sample.after scanningRun).session.move (.turn (.resume 0))).told := by
    obtain ⟨outcome, hfinished, hnetworks⟩ := exists_finished Outcome.networks?
      ((sample.after scanningRun).session.move (.turn (.resume 0))).told 0 [default]
      (by rw [hend, hreply]; decide +kernel)
    cases outcome with
    | networks found =>
      obtain rfl := Option.some.inj hnetworks
      exact hfinished
    | _ => cases hnetworks
  have hapart : sample.ScansApart scanningRun := by
    intro early filter hearly
    rcases early with _ | ⟨first, _ | ⟨second, _ | ⟨third, _ | ⟨fourth, _ | ⟨fifth, early⟩⟩⟩⟩⟩
    · exact List.forall_mem_nil _
    all_goals
      obtain ⟨rest, hrest⟩ := hearly
      simp [scanningRun, sampleCall, sampleDatagram] at hrest
  rcases (scans_gather_answers hcreate [] default scanningRun (.turn (.resume 0))
    (.networks [default]) ⟨_, rfl⟩ hapart hfinished).1 with hnone | ⟨hfound, hanswered, -⟩
  · cases hnone
  · exact ⟨hcreate, hapart, hfinished, (Outcome.networks.inj hfound).symm, hanswered⟩

end LocalPlay.Session
