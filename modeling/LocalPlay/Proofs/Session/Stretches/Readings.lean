import LocalPlay.Proofs.Session.History
import LocalPlay.Proofs.Session.Stretches.Verdicts

/-!
# Readings of the stored error

Moves have to do with errors in four ways. Packets that are handled report them, a receive that
fails raises the alarm without one, and calls begin or go on; everything else leaves the warnings
alone. `warns` says so for every move, and what calls report in a move is `verdicts`.

The stored error is read in some of the moves of calls: at the end of a wait for a reply, when a
handshake comes to nothing, and when a scan cannot open the link. After such a move nothing is
stored; after any other the error that was reported last in the move, or the one that was stored.
-/

namespace LocalPlay.Session

open Net Wire Overlay Timing

/-- The call waits, and for this. -/
def Waits (s : Session) (call : Nat) (pause : Pause) : Prop :=
  ∃ w ∈ s.waiting, w.id = call ∧ w.pause = pause

/-- The pause is that of a scan, a removal or a joining that has been asked for. -/
def Pause.isReply : Pause → Bool
  | scanReplies | joinReply | rejectReply => true
  | _ => false

def Call.isScan : Call → Bool
  | operate (.scan _) => true
  | _ => false

/-- The error that is reported to calls. -/
def Notice.error? : Notice → Option NetworkError
  | handled _ (.networkError .portUnreachable) => none
  | handled _ (.networkError error) => some error
  | _ => none

/-- The relay reports that the proxy hosted here cannot be reached. -/
def Notice.forbids : Notice → Bool
  | handled _ (.networkError .portUnreachable) => true
  | _ => false

/-- The stored error is read in this move. -/
inductive Reads (s : Session) : Move → Prop
  | reply {call : Nat} {pause : Pause} (hreply : pause.isReply = true) (hwaits : s.Waits call pause)
      (hended : ¬ (s.move (.turn (.resume call))).session.Waits call pause) :
    Reads s (.turn (.resume call))
  | handshake {call : Nat} {operation : Operation} {outcome : Outcome}
      (hwaits : s.Waits call (.handshake operation))
      (hfinished : .finished call outcome ∈ (s.move (.turn (.resume call))).told) :
    Reads s (.turn (.resume call))
  | scan {filter : ScanFilter} {outcome : Outcome} (hfinished : .finished s.calls outcome ∈
      (s.move (.event (.call (.operate (.scan filter))))).told) :
    Reads s (.event (.call (.operate (.scan filter))))

variable {s : Session} {m : Move} {call : Nat} {pause : Pause}

/-! ### Who waits -/

theorem Pause.awaits_of_isReply (hreply : pause.isReply = true) : .relayError ∈ pause.awaited := by
  cases pause with
  | scanReplies => exact List.mem_cons_of_mem _ List.mem_cons_self
  | joinReply => exact List.mem_cons_of_mem _ List.mem_cons_self
  | rejectReply => exact List.mem_cons_of_mem _ List.mem_cons_self
  | _ => exact absurd hreply Bool.false_ne_true

theorem mem_listeners : (call, pause) ∈ s.warnings.listeners ↔
    .relayError ∈ pause.awaited ∧ s.Waits call pause := by
  constructor
  · intro hmem
    obtain ⟨w, hw, hlistener⟩ := List.mem_filterMap.mp hmem
    rw [Waiting.listener?, Option.ite_none_right_eq_some] at hlistener
    obtain ⟨hawaited, hlistener⟩ := hlistener
    obtain ⟨rfl, rfl⟩ := Prod.mk.inj (Option.some.inj hlistener)
    exact ⟨hawaited, w, hw, rfl, rfl⟩
  · rintro ⟨hawaited, w, hw, rfl, rfl⟩
    exact List.mem_filterMap.mpr ⟨w, hw, if_pos hawaited⟩

/-- A call waits for one thing at a time. -/
theorem Waits.eq_pause {w : Waiting} (hwaits : s.Waits call pause)
    (hnumbered : Numbered (s.waiting.map (·.id)) s.calls)
    (hfind : s.waiting.find? (·.id == call) = some w) : w.pause = pause := by
  obtain ⟨other, hother, rfl, rfl⟩ := hwaits
  have hsame := (hnumbered.find?_eq hother).symm.trans hfind
  rw [Option.some.inj hsame]

/-! ### What is heeded -/

namespace Warnings

theorem heed_eq (warnings : Warnings) (notice : Notice) :
    (warnings.heed notice).error = notice.error?.getD warnings.error ∧
    (warnings.heed notice).raised = (warnings.raised || notice.error?.isSome) ∧
    (warnings.heed notice).p2p = (warnings.p2p && !notice.forbids) ∧
    (warnings.heed notice).listeners = warnings.listeners := by
  cases notice with
  | handled sender packet =>
    cases packet with
    | networkError error =>
      cases error with
      | _ => simp [heed, Notice.error?, Notice.forbids]
    | _ => simp [heed, Notice.error?, Notice.forbids]
  | _ => simp [heed, Notice.error?, Notice.forbids]

theorem error_foldl_heed (warnings : Warnings) (notices : List Notice) :
    (notices.foldl heed warnings).error = (latest Notice.error? notices).getD warnings.error := by
  induction notices using List.reverseRecOn with
  | nil => rfl
  | append_singleton notices notice ih =>
    rw [List.foldl_concat, (heed_eq _ notice).1, ih, latest_concat, Option.getD_or]

theorem raised_foldl_heed (warnings : Warnings) (notices : List Notice) :
    (notices.foldl heed warnings).raised =
      (warnings.raised || notices.any fun notice => notice.error?.isSome) := by
  induction notices generalizing warnings with
  | nil => exact (Bool.or_false _).symm
  | cons notice notices ih =>
    rw [List.foldl_cons, ih, (heed_eq _ notice).2.1, List.any_cons, Bool.or_assoc]

/-- Errors permit nothing. -/
theorem p2p_foldl_heed (warnings : Warnings) (notices : List Notice) :
    (notices.foldl heed warnings).p2p = (warnings.p2p && !notices.any Notice.forbids) := by
  induction notices generalizing warnings with
  | nil => exact (Bool.and_true _).symm
  | cons notice notices ih =>
    rw [List.foldl_cons, ih, (heed_eq _ notice).2.2.1, List.any_cons, Bool.not_or, Bool.and_assoc]

theorem listeners_foldl_heed (warnings : Warnings) (notices : List Notice) :
    (notices.foldl heed warnings).listeners = warnings.listeners := by
  refine List.foldlRecOn (motive := fun next => next.listeners = warnings.listeners) notices heed
    rfl ?_
  intro next hnext notice _
  rw [(heed_eq _ notice).2.2.2, hnext]

end Warnings

/-! ### What a move has to do with errors -/

/-- The calls that end in a move, each with what it comes to. -/
def verdicts (s : Session) : Move → List (Nat × Outcome)
  | .event (.call call) => ((call.answer? s).map (s.calls, ·)).toList
  | .turn (.resume call) =>
    if .resume call ∈ s.ready then ((s.verdict? call).map (call, ·)).toList else []
  | _ => []

/-- Errors are heeded in a move, or a receive fails that ends nothing, or a call has its say. -/
inductive Warns (s : Session) : Move → Act → Prop
  | heeds {m : Move} {b : Act} (h : Act.Heeds { session := s } b) (hnone : s.verdicts m = []) :
    Warns s m b
  | alarm {error : IoError} (hseverity : error.severity ≠ .unrecoverable)
      (hlistening : s.isListening = true) :
    Warns s (.event (.receiveError error)) (({ session := s } : Act).raise .relayError)
  | begins (call : Call) :
    Warns s (.event (.call call))
      (({ session := { s with calls := s.calls + 1 } } : Act).begin s.calls call)
  | resumes {call : Nat} (hready : .resume call ∈ s.ready) :
    Warns s (.turn (.resume call))
      (({ session := { s with ready := s.ready.erase (.resume call) } } : Act).resume call)

namespace Act.Heeds

theorem start {s next : Session} (hwarnings : next.warnings = s.warnings)
    (hhosted : next.hosted = s.hosted) (hguest : next.membership = s.membership) :
    Heeds { session := s } { session := next } :=
  (Heeds.refl { session := s }).same rfl hwarnings hhosted hguest

theorem perform {a : Act} {activity : Activity} (hactivity : ∀ call, activity ≠ .resume call) :
    Heeds a (a.perform activity) := by
  cases activity with
  | resume call => exact absurd rfl (hactivity call)
  | cleanup => exact (Heeds.refl a).cleanup
  | idleStop => exact (Heeds.refl a).stopReceiver .idleCountdown
  | host job => exact (Heeds.refl a).atHost (.perform a.session.clock a.session.link job)

end Act.Heeds

theorem Act.raise_eq (a : Act) (signal : Signal) : ∃ ready, a.raise signal =
    { a with session := { a.session with latches := a.session.latches.raise signal, ready } } := by
  obtain ⟨ready, hwake, -⟩ := exists_foldl_wake_eq (fun w : Waiting => .resume w.id)
    (a.session.waiting.filter (signal ∈ ·.pause.awaited))
    (a.update fun s => { s with latches := s.latches.raise signal })
  exact ⟨ready, hwake⟩

theorem warns_event (s : Session) {event : Event} (hevent : ∀ call, event ≠ .call call) :
    s.Warns (.event event) (s.move (.event event)) := by
  have hstart := Act.Heeds.refl { session := s }
  cases event with
  | call call => exact absurd rfl (hevent call)
  | datagram sender bytes =>
    rw [move, happen]
    split
    · exact .heeds (hstart.receive sender bytes) rfl
    · exact .heeds hstart rfl
  | receiveError error =>
    rw [move, happen]
    split
    · rename_i hlistening
      dsimp only
      rw [Act.receiveFailed]
      split
      · exact .heeds (hstart.close .ended) rfl
      · rename_i hseverity
        exact .alarm (by rw [hseverity]; decide) hlistening
      · rename_i hseverity
        exact .alarm (by rw [hseverity]; decide) hlistening
    · exact .heeds hstart rfl
  | setPassphrase text =>
    rw [move, happen]
    split
    · exact .heeds (.start rfl rfl rfl) rfl
    · exact .heeds hstart rfl
  | setGameVersion version => exact .heeds (.start rfl rfl rfl) rfl
  | setOpenFault error => exact .heeds (.start rfl rfl rfl) rfl
  | setFault target error => exact .heeds (.start rfl rfl rfl) rfl

theorem warns (s : Session) (m : Move) : s.Warns m (s.move m) := by
  have hstart := Act.Heeds.refl { session := s }
  cases m with
  | reach time =>
    obtain ⟨ready, hreach, -⟩ := s.exists_reach_eq time
    rw [move, hreach]
    exact .heeds (.start rfl rfl rfl) rfl
  | turn activity =>
    rw [move]
    split
    · rename_i hready
      have hturn : Act.Heeds { session := s }
          { session := { s with ready := s.ready.erase activity } } := .start rfl rfl rfl
      cases activity with
      | resume call => exact .resumes hready
      | _ => exact .heeds (hturn.trans (.perform (by simp))) rfl
    · rename_i hready
      refine .heeds hstart ?_
      cases activity with
      | resume call => exact if_neg hready
      | _ => rfl
  | event event =>
    cases event with
    | call call => exact .begins call
    | _ => exact s.warns_event (by simp)

theorem Call.answer?_calls (call : Call) (s : Session) (calls : Nat) :
    call.answer? { s with calls } = call.answer? s := by
  cases call with
  | _ => rfl

theorem reports_move (s : Session) (m : Move) : reports (s.move m).told = s.verdicts m := by
  have hwarns := s.warns m
  generalize s.move m = b at hwarns ⊢
  cases hwarns with
  | heeds hheeds hnone => rw [hheeds.reports_eq, hnone]; rfl
  | alarm =>
    obtain ⟨ready, hraise⟩ := Act.raise_eq { session := s } .relayError
    rw [hraise]
    rfl
  | begins call =>
    rw [Act.reports_begin, Call.answer?_calls]
    rfl
  | resumes hready =>
    rw [Act.reports_resume, verdicts, if_pos hready]
    rfl

/-! ### Readings -/

/-- Calls handle no packets, so no error is reported in their stretches. -/
theorem latest_error?_of_plain {next : Session} {b : Act}
    (h : Act.Plain { session := next } b) : latest Notice.error? b.told = none := by
  obtain ⟨more, hmore, hplain⟩ := h.told
  refine List.findSome?_eq_none_iff.mpr fun notice hmem => ?_
  rw [hmore, List.nil_append, List.mem_reverse] at hmem
  have hnotice := hplain notice hmem
  cases notice with
  | handled sender packet => exact absurd hnotice Bool.false_ne_true
  | _ => rfl

namespace Act

variable {a : Act}

theorem lastError_goOn (index : Option Nat) :
    (a.goOn call index pause).session.lastError =
      (a.session.warnings.goOn a.session call index pause).error :=
  congrArg Warnings.error (warnings_goOn call a index pause)

theorem error_await (warnings : Warnings) : (warnings.await call pause).error = warnings.error := by
  rw [Warnings.await]
  split
  · rfl
  · rfl

/-- A call reads whose wait for a reply ends. -/
theorem lastError_of_reply (hnumbered : Numbered (a.session.waiting.map (·.id)) a.session.calls)
    (hreply : pause.isReply = true) (hwaits : a.session.Waits call pause)
    (hended : ¬ (a.resume call).session.Waits call pause) :
    (a.resume call).session.lastError = .none := by
  have hlooks := looks call a
  generalize a.session.verdict? call = verdict at hlooks
  generalize a.resume call = b at hlooks hended ⊢
  cases hlooks with
  | still => exact absurd hwaits hended
  | ends overlay hfind hpause =>
    rw [hwaits.eq_pause hnumbered hfind] at hpause
    rcases hpause with ⟨rfl, -⟩ | ⟨guest, arrived, rfl⟩
    · exact absurd hreply Bool.false_ne_true
    · exact absurd hreply Bool.false_ne_true
  | goesOn index hfind =>
    rw [hwaits.eq_pause hnumbered hfind, lastError_goOn]
    cases pause with
    | scanReplies => rfl
    | joinReply => rfl
    | rejectReply => rfl
    | _ => exact absurd hreply Bool.false_ne_true

/-- A call reads whose handshake comes to nothing. -/
theorem lastError_of_handshake {operation : Operation}
    (hnumbered : Numbered (a.session.waiting.map (·.id)) a.session.calls)
    (hwaits : a.session.Waits call (.handshake operation))
    (hfinished : reports (a.resume call).told ≠ reports a.told) :
    (a.resume call).session.lastError = .none := by
  have hlooks := looks call a
  generalize a.session.verdict? call = verdict at hlooks
  generalize a.resume call = b at hlooks hfinished ⊢
  cases hlooks with
  | still => exact absurd rfl hfinished
  | ends overlay hfind hpause =>
    rw [hwaits.eq_pause hnumbered hfind] at hpause
    rcases hpause with ⟨hpause, -⟩ | ⟨guest, arrived, hpause⟩
    · cases hpause
    · cases hpause
  | goesOn index hfind =>
    rw [hwaits.eq_pause hnumbered hfind] at hfinished ⊢
    rw [lastError_goOn, Warnings.goOn]
    rw [reports_goOn, Pause.verdict?] at hfinished
    split
    · rename_i hgreeted
      rw [if_pos hgreeted] at hfinished
      exact absurd (List.append_nil _) hfinished
    · rfl

/-- Nobody else reads on his turn. -/
theorem lastError_of_neither
    (hreply : ∀ pause, pause.isReply = true → a.session.Waits call pause →
      (a.resume call).session.Waits call pause)
    (hhandshake : ∀ operation, a.session.Waits call (.handshake operation) →
      reports (a.resume call).told = reports a.told) :
    (a.resume call).session.lastError = a.session.lastError := by
  have hlooks := looks call a
  generalize a.session.verdict? call = verdict at hlooks
  generalize a.resume call = b at hlooks hreply hhandshake ⊢
  cases hlooks with
  | still => rfl
  | ends overlay hfind hpause => rfl
  | @goesOn w latches index hfind hawaited hraised =>
    have hwaits : a.session.Waits call w.pause :=
      ⟨w, List.mem_of_find?_eq_some hfind, beq_iff_eq.mp (List.find?_some hfind :), rfl⟩
    have hleft := warnings_endWait call a hraised
    -- A reply that is waited for no longer is not among what is listened for either.
    have hnone (hpause : w.pause.isReply = true) (hread :
        (a.endWait call latches).session.warnings.goOn (a.endWait call latches).session call index
          w.pause = (a.endWait call latches).session.warnings.read) : False := by
      have hmem := mem_listeners.mpr ⟨Pause.awaits_of_isReply hpause, hreply _ hpause hwaits⟩
      rw [warnings_goOn, hread, hleft] at hmem
      exact of_decide_eq_true (List.mem_filter.mp hmem).2 rfl
    rw [lastError_goOn]
    cases hpause : w.pause with
    | handshake operation =>
      rw [Warnings.goOn]
      split
      · exact error_await _
      · rename_i hungreeted
        rw [hpause] at hhandshake hwaits
        have hsame := hhandshake operation hwaits
        rw [reports_goOn, Pause.verdict?, if_neg hungreeted] at hsame
        exact absurd hsame (by simp [endWait, endPause, update])
    | scanReplies => exact (hnone (by rw [hpause]; rfl) (by rw [hpause]; rfl)).elim
    | joinReply => exact (hnone (by rw [hpause]; rfl) (by rw [hpause]; rfl)).elim
    | rejectReply => exact (hnone (by rw [hpause]; rfl) (by rw [hpause]; rfl)).elim
    | _ => rfl

/-- Of the calls that begin only scans read that cannot open the link. -/
theorem lastError_begin (a : Act) (call : Nat) (begun : Call) :
    (a.begin call begun).session.lastError =
      if begun.isScan ∧ (begun.answer? a.session).isSome then .none else a.session.lastError := by
  have hbegin : (a.begin call begun).session.lastError =
      (a.session.warnings.begin a.session call begun).error :=
    congrArg Warnings.error (warnings_begin call a begun)
  rw [hbegin]
  cases begun with
  | operate operation =>
    have hanswer : ((Call.operate operation).answer? a.session).isSome = true ↔
        a.session.phase = .idle ∧ a.session.openFault.isSome = true := by
      rw [Call.answer?]
      split
      · rename_i hidle
        exact ⟨fun _ => hidle, fun _ => rfl⟩
      · rename_i hopen
        exact ⟨fun hsome => absurd hsome Bool.false_ne_true, fun hidle => absurd hidle hopen⟩
    simp only [Warnings.begin, hanswer]
    split
    · rename_i hphase
      rw [if_neg fun h => hphase h.2.1]
      exact error_await _
    · rename_i hphase
      split
      · rename_i hfault
        simp only [Decidable.of_not_not hphase, hfault, and_self, and_true]
        cases operation with
        | _ => rfl
      · rename_i hfault
        rw [if_neg fun h => hfault h.2.2]
        exact error_await _
  | reject removal =>
    rw [Warnings.begin]
    split
    · exact error_await _
    · rfl
  | _ => rfl

end Act

theorem Act.Heeds.waits {b : Act} (h : Act.Heeds { session := s } b)
    (hawaited : .relayError ∈ pause.awaited) (hwaits : s.Waits call pause) :
    b.session.Waits call pause := by
  obtain ⟨more, -, hfollows⟩ := h
  have hmem := mem_listeners.mpr ⟨hawaited, hwaits⟩
  have hsame : b.session.warnings.listeners = s.warnings.listeners := by
    rw [hfollows.warnings, Warnings.listeners_foldl_heed]
  rw [← hsame] at hmem
  exact (mem_listeners.mp hmem).2

theorem Act.Heeds.not_finished {b : Act} (h : Act.Heeds { session := s } b)
    (outcome : Outcome) : .finished call outcome ∉ b.told := by
  obtain ⟨more, htold, hfollows⟩ := h
  rw [htold, List.nil_append]
  exact hfollows.unfinished call outcome

/-- After a reading nothing is stored. -/
theorem lastError_of_reads (hnumbered : Numbered (s.waiting.map (·.id)) s.calls)
    (hreads : s.Reads m) : (s.move m).session.lastError = .none := by
  have hwarns := s.warns m
  cases hreads with
  | @reply call pause hreply hwaits hended =>
    generalize s.move (.turn (.resume call)) = b at hwarns hended ⊢
    cases hwarns with
    | heeds hheeds =>
      exact absurd (hheeds.waits (Pause.awaits_of_isReply hreply) hwaits) hended
    | resumes => exact Act.lastError_of_reply hnumbered hreply hwaits hended
  | @handshake call operation outcome hwaits hfinished =>
    generalize s.move (.turn (.resume call)) = b at hwarns hfinished ⊢
    cases hwarns with
    | heeds hheeds => exact absurd hfinished (hheeds.not_finished outcome)
    | resumes =>
      refine Act.lastError_of_handshake hnumbered hwaits fun hsame => ?_
      rw [← mem_reports, hsame] at hfinished
      cases hfinished
  | @scan filter outcome hfinished =>
    have hbegin : s.move (.event (.call (.operate (.scan filter)))) =
      ({ session := { s with calls := s.calls + 1 } } : Act).begin s.calls
        (.operate (.scan filter)) := rfl
    rw [hbegin] at hfinished ⊢
    rw [← mem_reports, Act.reports_begin] at hfinished
    rw [Act.lastError_begin, if_pos]
    refine ⟨rfl, ?_⟩
    generalize Call.answer? _ _ = answer at hfinished ⊢
    cases answer with
    | some outcome => rfl
    | none => cases hfinished

/-- Without a reading the error that is stored stays so, unless another is reported. -/
theorem lastError_of_not_reads (hreads : ¬ s.Reads m) : (s.move m).session.lastError =
    (latest Notice.error? (s.move m).told).getD s.lastError := by
  have hwarns := s.warns m
  generalize hmove : s.move m = b at hwarns ⊢
  cases hwarns with
  | heeds hheeds =>
    obtain ⟨more, htold, hfollows⟩ := hheeds
    rw [htold, List.nil_append]
    exact (congrArg Warnings.error hfollows.warnings).trans (Warnings.error_foldl_heed _ _)
  | alarm =>
    obtain ⟨ready, hraise⟩ := Act.raise_eq { session := s } .relayError
    rw [hraise]
    rfl
  | begins begun =>
    rw [latest_error?_of_plain ((Act.Plain.refl _).begin s.calls begun), Act.lastError_begin]
    refine if_neg fun hscan => hreads ?_
    obtain ⟨hscan, hanswer⟩ := hscan
    obtain ⟨outcome, hanswer⟩ := Option.isSome_iff_exists.mp hanswer
    have hfinished : .finished s.calls outcome ∈ (s.move (.event (.call begun))).told := by
      rw [hmove, ← mem_reports, Act.reports_begin, hanswer]
      exact List.mem_concat_self
    cases begun with
    | operate operation =>
      cases operation with
      | scan filter => exact .scan hfinished
      | _ => exact absurd hscan Bool.false_ne_true
    | _ => exact absurd hscan Bool.false_ne_true
  | @resumes call hready =>
    rw [latest_error?_of_plain ((Act.Plain.refl _).resume call)]
    refine Act.lastError_of_neither (fun pause hreply hwaits => ?_) fun operation hwaits => ?_
    · rw [← hmove]
      by_contra hended
      exact hreads (.reply hreply hwaits hended)
    · rw [Act.reports_resume]
      generalize hverdict : Session.verdict? _ call = verdict
      cases verdict with
      | none => rfl
      | some outcome =>
        have hfinished : .finished call outcome ∈ (s.move (.turn (.resume call))).told := by
          rw [hmove, ← mem_reports, Act.reports_resume, hverdict]
          exact List.mem_concat_self
        exact absurd (.handshake hwaits hfinished) hreads

end LocalPlay.Session
