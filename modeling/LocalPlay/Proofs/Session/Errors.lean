import LocalPlay.Proofs.Session.Coherence
import LocalPlay.Proofs.Session.Patience
import LocalPlay.Proofs.Session.Stretches.Readings

/-!
# Errors are read once

An error of the relay is stored until a call reads it, whichever call that is. Calls read at the end
of their wait for a reply, when their handshake comes to nothing, and, if they are scans, when the
link cannot be opened; calls that create a network never read once the link is there. So what is
stored is the last error that was reported since the last reading: `Outstanding`.

Errors also wake calls, and that wakes nobody twice: who begins to listen for errors has forgotten
those before.

That a proxy cannot be reached is reported as an error too, but it is neither stored nor wakes it
anybody. It only forbids to host proxies, and no call's outcome depends on that.
-/

namespace LocalPlay.Session

open Net Wire Overlay Timing

/-- Since the stored error was read last, this was the last that was reported. -/
def Outstanding (s : Session) (moves : List Move) (error : NetworkError) : Prop :=
  ∃ early rest, moves = early ++ rest ∧
    (∀ middle m later, rest = middle ++ m :: later →
      ¬ (s.after (early ++ middle)).session.Reads m) ∧
    latest Notice.error? ((s.after early).session.after rest).told = some error

/-- An error is reported, or a receive fails from which the session recovers. -/
def Alarms (s : Session) (m : Move) : Prop :=
  (∃ notice ∈ (s.move m).told, notice.error?.isSome = true) ∨
    ∃ error, m = .event (.receiveError error) ∧ error.severity ≠ .unrecoverable ∧
      s.isListening = true

/-- There was an alarm while the call was waiting for this. -/
def Alarmed (s : Session) (moves : List Move) (call : Nat) (pause : Pause) : Prop :=
  ∃ early m later, moves = early ++ m :: later ∧ (s.after early).session.Alarms m ∧
    (s.after early).session.Waits call pause

variable {s : Session} {m : Move} {moves : List Move} {call : Nat} {pause : Pause}

/-! ### Verdicts -/

theorem Operation.eq_unknown_of_failure {operation : Operation} {error : NetworkError}
    (hfailure : operation.failure = .joined error) : error = .unknown := by
  cases operation with
  | connectPublic request => exact (Outcome.joined.inj hfailure).symm
  | connectPrivate request => exact (Outcome.joined.inj hfailure).symm
  | _ => cases hfailure

/-- A call that ends as soon as it has begun is told of no error of the relay. -/
theorem Call.eq_unknown_of_answer {begun : Call} {error : NetworkError}
    (hanswer : begun.answer? s = some (.joined error)) : error = .unknown := by
  obtain ⟨operation, -, -, hfailure⟩ := exists_operation_of_answer hanswer rfl
  exact Operation.eq_unknown_of_failure hfailure

/-- A joining ends with the error that is stored, unless it ends well or without an answer. -/
theorem Pause.joined_cases {index : Option Nat} {error : NetworkError}
    (hverdict : pause.verdict? s index = some (.joined error)) :
    error = .none ∨ error = .connectTimeout ∨ error = .unknown ∨
      s.lastError = error ∧ pause = .joinReply := by
  cases pause with
  | handshake operation =>
    rw [verdict?, Option.ite_none_left_eq_some] at hverdict
    exact .inr (.inr (.inl (Operation.eq_unknown_of_failure (Option.some.inj hverdict.2))))
  | confirmation =>
    rw [verdict?] at hverdict
    repeat' split at hverdict
    all_goals cases hverdict
  | joinReply =>
    rw [verdict?] at hverdict
    split at hverdict
    · exact .inr (.inr (.inr ⟨Outcome.joined.inj (Option.some.inj hverdict), rfl⟩))
    · split at hverdict
      · exact .inr (.inl (Outcome.joined.inj (Option.some.inj hverdict)).symm)
      · rw [Option.ite_none_left_eq_some] at hverdict
        exact .inl (Outcome.joined.inj (Option.some.inj hverdict.2)).symm
  | _ => cases hverdict

/-- A joining that ends with an error of the relay has read it. -/
theorem joined_cases (hpromised : ∀ w ∈ s.waiting, ∀ outcome,
      w.pause.promised? = some outcome → outcome.isJoined = true) {error : NetworkError}
    (hfinished : .finished call (.joined error) ∈ (s.move m).told) :
    error = .none ∨ error = .connectTimeout ∨ error = .unknown ∨
      s.lastError = error ∧ (s.move m).session.lastError = .none := by
  have hwarns := s.warns m
  generalize s.move m = b at hwarns hfinished ⊢
  cases hwarns with
  | heeds hheeds => exact absurd hfinished (hheeds.not_finished _)
  | alarm =>
    obtain ⟨ready, hraise⟩ := Act.raise_eq { session := s } .relayError
    rw [hraise] at hfinished
    cases hfinished
  | begins begun =>
    rw [← mem_reports, Act.reports_begin] at hfinished
    exact .inr (.inr (.inl (Call.eq_unknown_of_answer (eq_of_mem_toList hfinished).2)))
  | @resumes own hready =>
    rw [← mem_reports, Act.reports_resume] at hfinished
    have hverdict := (eq_of_mem_toList hfinished).2
    have hlooks := Act.looks own { session := { s with ready := s.ready.erase (.resume own) } }
    rw [hverdict] at hlooks
    generalize hsome : some (Outcome.joined error) = verdict at hlooks
    generalize Act.resume _ own = b at hlooks ⊢
    cases hlooks with
    | still => cases hsome
    | @ends w outcome overlay hfind hpause =>
      obtain rfl := Option.some.inj hsome
      rcases hpause with ⟨-, hdone⟩ | ⟨guest, arrived, hpause⟩
      · cases hdone
      · have hjoined := hpromised w (List.mem_of_find?_eq_some hfind) (.joined error)
          (by rw [hpause]; rfl)
        exact .inl (of_decide_eq_true hjoined)
    | goesOn index hfind =>
      refine (Pause.joined_cases hsome.symm).imp_right (.imp_right (.imp_right fun h => ?_))
      obtain ⟨hstored, hpause⟩ := h
      refine ⟨hstored, ?_⟩
      rw [hpause, Act.lastError_goOn]
      rfl

/-! ### Runs -/

theorem exists_error_of_latest {notices : List Notice} {error : NetworkError}
    (hlatest : latest Notice.error? notices = some error) :
    ∃ notice ∈ notices, notice.error? = some error := by
  obtain ⟨notice, hmem, hnotice⟩ := List.exists_of_findSome?_eq_some hlatest
  exact ⟨notice, List.mem_reverse.mp hmem, hnotice⟩

theorem error?_ne_portUnreachable (notice : Notice) :
    notice.error? ≠ some .portUnreachable := by
  intro hnotice
  cases notice with
  | handled sender packet =>
    cases packet with
    | networkError error =>
      cases error with
      | _ => simp [Notice.error?] at hnotice
    | _ => cases hnotice
  | _ => cases hnotice

/-- In moves without a reading the stored error follows the reports. -/
theorem lastError_of_unread {rest : List Move} (hunread : ∀ middle m later,
    rest = middle ++ m :: later → ¬ (s.after middle).session.Reads m) :
    (s.after rest).session.lastError =
      (latest Notice.error? (s.after rest).told).getD s.lastError := by
  induction rest using List.reverseRecOn with
  | nil => rfl
  | append_singleton rest m ih =>
    obtain ⟨hbefore, hlast⟩ := forall_split_concat.mp hunread
    rw [after_concat, Act.next, Act.followedBy, latest_append, Option.getD_or, ← ih hbefore]
    exact lastError_of_not_reads hlast

/-- An error that is stored in a session that began with none was reported since the last
reading. -/
theorem exists_unread (hsound : s.Sound) (hnone : s.lastError = .none) (moves : List Move)
    (hstored : (s.after moves).session.lastError ≠ .none) :
    s.Outstanding moves (s.after moves).session.lastError := by
  induction moves using List.reverseRecOn with
  | nil => exact absurd hnone hstored
  | append_singleton moves m ih =>
    rw [after_concat] at hstored ⊢
    have hlast : ¬ (s.after moves).session.Reads m := fun hreads =>
      hstored (lastError_of_reads (hsound.after moves).numbered hreads)
    have hstep : ((s.after moves).next m).session.lastError = _ := lastError_of_not_reads hlast
    cases hnew : latest Notice.error? ((s.after moves).session.move m).told with
    | some error =>
      rw [hnew, Option.getD_some] at hstep
      rw [hstep]
      refine ⟨moves, [m], rfl, fun middle last later hsplit => ?_, hnew⟩
      obtain ⟨rfl, rfl⟩ := split_singleton hsplit
      rwa [List.append_nil]
    | none =>
      rw [hnew, Option.getD_none] at hstep
      rw [hstep] at hstored ⊢
      obtain ⟨early, rest, rfl, hunread, hlatest⟩ := ih hstored
      refine ⟨early, rest ++ [m], List.append_assoc .., ?_, ?_⟩
      · exact forall_split_concat.mpr ⟨hunread, hlast⟩
      · rw [after_append, Act.followedBy] at hnew
        rw [after_concat, Act.next, Act.followedBy, latest_append, hnew, Option.none_or]
        exact hlatest

/-- An error is stored if and only if it is outstanding. -/
theorem lastError_eq_iff (hsound : s.Sound) (hnone : s.lastError = .none) (moves : List Move)
    {error : NetworkError} (herror : error ≠ .none) :
    (s.after moves).session.lastError = error ↔ s.Outstanding moves error := by
  constructor
  · rintro rfl
    exact exists_unread hsound hnone moves herror
  · rintro ⟨early, rest, rfl, hunread, hlatest⟩
    have hsince : ((s.after early).session.after rest).session.lastError = error := by
      rw [lastError_of_unread fun middle m later hrest => ?_, hlatest, Option.getD_some]
      have hmiddle := hunread middle m later hrest
      rwa [after_append] at hmiddle
    rw [after_append]
    exact hsince

/-- What is stored later, if nothing is stored now, is reported from now on. -/
theorem latest_of_stored (hsound : s.Sound) (hnone : s.lastError = .none) (later : List Move)
    (hstored : (s.after later).session.lastError ≠ .none) :
    latest Notice.error? (s.after later).told = some (s.after later).session.lastError := by
  obtain ⟨early, rest, hlater, -, hlatest⟩ := exists_unread hsound hnone later hstored
  have htold := congrArg Act.told (s.after_append early rest)
  rw [← hlater] at htold
  rw [htold, Act.followedBy, latest_append, hlatest, Option.some_or]

/-- The proxy that cannot be reached is no stored error. -/
theorem not_outstanding_portUnreachable (s : Session) (moves : List Move) :
    ¬ s.Outstanding moves .portUnreachable := by
  rintro ⟨early, rest, -, -, hlatest⟩
  obtain ⟨notice, -, hnotice⟩ := exists_error_of_latest hlatest
  exact error?_ne_portUnreachable notice hnotice

/-- Calls that listen and find an alarm have not missed that it came while they were waiting. -/
theorem alarmed_of_raised (hquiet : s.latches.isRaised .relayError = false) (moves : List Move)
    (hmem : (call, pause) ∈ (s.after moves).session.warnings.listeners)
    (hraised : (s.after moves).session.latches.isRaised .relayError = true) :
    s.Alarmed moves call pause := by
  induction moves using List.reverseRecOn with
  | nil => exact absurd (hquiet.symm.trans hraised) Bool.false_ne_true
  | append_singleton moves m ih =>
    rw [after_concat] at hmem hraised
    -- The alarm is an old one, or it comes in this move.
    have hold (hmem : (call, pause) ∈ (s.after moves).session.warnings.listeners)
        (hraised : (s.after moves).session.latches.isRaised .relayError = true) :
        s.Alarmed (moves ++ [m]) call pause := by
      obtain ⟨early, m', later, rfl, halarms, hwaits⟩ := ih hmem hraised
      exact ⟨early, m', later ++ [m], by simp, halarms, hwaits⟩
    have hnew (hmem : (call, pause) ∈ (s.after moves).session.warnings.listeners)
        (halarms : (s.after moves).session.Alarms m) : s.Alarmed (moves ++ [m]) call pause :=
      ⟨moves, m, [], rfl, halarms, (mem_listeners.mp hmem).2⟩
    have hcleared {b : Act} {own : Nat}
        (h : Warnings.Clears own (s.after moves).session.warnings b.session.warnings)
        (hmem : (call, pause) ∈ b.session.warnings.listeners)
        (hraised : b.session.latches.isRaised .relayError = true) :
        s.Alarmed (moves ++ [m]) call pause := by
      refine hold ((h.fresh _ hmem).resolve_right fun hquiet => ?_) (h.raised hraised)
      exact absurd (hquiet.symm.trans hraised) Bool.false_ne_true
    have hwarns := (s.after moves).session.warns m
    generalize hmove : (s.after moves).session.move m = b at hwarns
    rw [Act.next, Act.followedBy, hmove] at hmem hraised
    cases hwarns with
    | heeds hheeds =>
      obtain ⟨more, htold, hfollows⟩ := hheeds
      have hraised : b.session.warnings.raised = true := hraised
      rw [hfollows.warnings, Warnings.raised_foldl_heed, Bool.or_eq_true] at hraised
      rw [hfollows.warnings, Warnings.listeners_foldl_heed] at hmem
      refine hraised.elim (hold hmem) fun hany => hnew hmem (.inl ?_)
      rw [hmove, htold]
      exact List.any_eq_true.mp hany
    | @alarm error hseverity hlistening =>
      obtain ⟨ready, hraise⟩ := Act.raise_eq { session := (s.after moves).session } .relayError
      rw [hraise] at hmem
      exact hnew hmem (.inr ⟨error, rfl, hseverity, hlistening⟩)
    | begins begun =>
      have hclears := Act.clears_begin (s.after moves).session.calls
        { session := { (s.after moves).session with calls := (s.after moves).session.calls + 1 } }
        begun
      exact hcleared hclears hmem hraised
    | @resumes own hready =>
      have hclears := Act.clears_resume own { session := { (s.after moves).session with
        ready := (s.after moves).session.ready.erase (.resume own) } }
      exact hcleared hclears hmem hraised

/-- A call that is waited with for a reply waits on until its own turn. -/
theorem lastError_of_ended (hnumbered : Numbered (s.waiting.map (·.id)) s.calls)
    (hreply : pause.isReply = true) (hwaits : s.Waits call pause)
    (hended : ¬ (s.move m).session.Waits call pause) : (s.move m).session.lastError = .none := by
  have hawaited := Pause.awaits_of_isReply hreply
  have hmem := mem_listeners.mpr ⟨hawaited, hwaits⟩
  have hother {own : Nat} {b : Act} (h : Warnings.Clears own s.warnings b.session.warnings)
      (hown : call ≠ own) : b.session.Waits call pause :=
    (mem_listeners.mp (h.others _ hmem hown)).2
  have hwarns := s.warns m
  generalize hmove : s.move m = b at hwarns hended ⊢
  cases hwarns with
  | heeds hheeds => exact absurd (hheeds.waits hawaited hwaits) hended
  | alarm =>
    obtain ⟨ready, hraise⟩ := Act.raise_eq { session := s } .relayError
    rw [hraise] at hended
    exact absurd hwaits hended
  | begins begun =>
    have hclears :=
      Act.clears_begin s.calls { session := { s with calls := s.calls + 1 } } begun
    obtain ⟨w, hw, rfl, -⟩ := hwaits
    have hbelow : w.id < s.calls := hnumbered.below _ (List.mem_map_of_mem hw)
    exact absurd (hother hclears (Nat.ne_of_lt hbelow)) hended
  | @resumes own hready =>
    have hclears :=
      Act.clears_resume own { session := { s with ready := s.ready.erase (.resume own) } }
    by_cases hown : call = own
    · subst hown
      exact Act.lastError_of_reply hnumbered hreply hwaits hended
    · exact absurd (hother hclears hown) hended

/-- Where a proxy that cannot be reached has been reported, calls end as they would have ended. -/
theorem verdicts_portUnreachable (s : Session) (sender : Endpoint) (m : Move) :
    (({ session := s } : Act).handle sender (.networkError .portUnreachable)).session.verdicts m =
      s.verdicts m := by
  cases m with
  | event event =>
    cases event with
    | call call =>
      cases call with
      | _ => rfl
    | _ => rfl
  | turn activity =>
    cases activity with
    | _ => rfl
  | reach time => rfl

/-- At every time in a run an error is stored just if it was the last that was reported since the
last reading. A joining that reports an error of the relay reports this one, and reads it, so that
from then on only later errors are stored. After a wait for a reply nothing is stored. A call that
an alarm wakes was waiting when the alarm came. That a proxy cannot be reached is never stored, is
never what a joining comes to, and changes no call's verdict. -/
theorem errors_read_once {settings : Settings} {interfaces : Interfaces}
    {localAddress : Except IoError Endpoint}
    (hcreate : create settings interfaces localAddress = .ok s) (moves : List Move) :
    let t := (s.after moves).session
    (∀ error, error ≠ .none → (t.lastError = error ↔ s.Outstanding moves error)) ∧
    (∀ call pause, .relayError ∈ pause.awaited → t.Waits call pause →
      t.latches.isRaised .relayError = true → s.Alarmed moves call pause) ∧
    (∀ m, let u := (t.move m).session
      (∀ call error, .finished call (.joined error) ∈ (t.move m).told →
        error ≠ .none → error ≠ .connectTimeout → error ≠ .unknown →
        s.Outstanding moves error ∧ u.lastError = .none ∧
          ∀ later, (u.after later).session.lastError ≠ .none →
            latest Notice.error? (u.after later).told = some (u.after later).session.lastError) ∧
      (∀ call pause, pause.isReply = true → t.Waits call pause → ¬ u.Waits call pause →
        u.lastError = .none) ∧
      (∀ call, .finished call (.joined .portUnreachable) ∉ (t.move m).told) ∧
      ∀ sender, reports ((({ session := t } : Act).handle sender
        (.networkError .portUnreachable)).session.move m).told = reports (t.move m).told) ∧
    t.lastError ≠ .portUnreachable := by
  intro t
  have hsound := sound_create hcreate
  have hfresh : s.lastError = .none ∧ s.latches.isRaised .relayError = false := by
    obtain ⟨relay, rfl⟩ := create_eq hcreate
    exact ⟨rfl, rfl⟩
  have ht : t.Sound := hsound.after moves
  have hstored {error : NetworkError} (herror : error ≠ .none) :
      t.lastError = error ↔ s.Outstanding moves error :=
    lastError_eq_iff hsound hfresh.1 moves herror
  have hport : t.lastError ≠ .portUnreachable := fun hstill =>
    not_outstanding_portUnreachable s moves ((hstored (by simp)).mp hstill)
  have hjoined {m : Move} {call : Nat} {error : NetworkError}
      (hfinished : .finished call (.joined error) ∈ (t.move m).told) :=
    joined_cases (fun w hw outcome hpromised => isJoined_of_promised hcreate moves hw hpromised)
      hfinished
  refine ⟨fun error herror => hstored herror, fun call pause hawaited hwaits hraised => ?_,
    fun m => ⟨fun call error hfinished hnone htimeout hunknown => ?_, ?_, fun call hfinished => ?_,
      fun sender => ?_⟩, hport⟩
  · exact alarmed_of_raised hfresh.2 moves (mem_listeners.mpr ⟨hawaited, hwaits⟩) hraised
  · rcases hjoined hfinished with herror | herror | herror | ⟨herror, hread⟩
    · exact absurd herror hnone
    · exact absurd herror htimeout
    · exact absurd herror hunknown
    · exact ⟨(hstored hnone).mp herror, hread, latest_of_stored (ht.move m) hread⟩
  · intro call pause hreply hwaits hended
    exact lastError_of_ended ht.numbered hreply hwaits hended
  · rcases hjoined hfinished with herror | herror | herror | ⟨herror, -⟩
    · cases herror
    · cases herror
    · cases herror
    · exact hport herror
  · rw [reports_move, reports_move, verdicts_portUnreachable]

def Notice.joinError? : Notice → Option (Nat × NetworkError)
  | finished call (.joined error) => some (call, error)
  | _ => none

theorem mem_of_joinError? {told : List Notice} {error : NetworkError}
    (hfound : told.findSome? Notice.joinError? = some (call, error)) :
    .finished call (.joined error) ∈ told := by
  obtain ⟨notice, hmem, hnotice⟩ := List.exists_of_findSome?_eq_some hfound
  cases notice with
  | finished own outcome =>
    cases outcome with
    | joined given =>
      obtain ⟨rfl, rfl⟩ := Prod.mk.inj (Option.some.inj hnotice)
      exact hmem
    | _ => cases hnotice
  | _ => cases hnotice

/-- A station is rejected by the host of the network it wants to join. -/
theorem errors_read_once_of_rejection :
    let moves := joiningRun ++ [sampleDatagram (.networkError .connectRejected)]
    create {} (.ok []) (.ok sampleAddress) = .ok sample ∧
      .finished 0 (.joined .connectRejected) ∈
        ((sample.after moves).session.move (.turn (.resume 0))).told ∧
      sample.Outstanding moves .connectRejected ∧
      ((sample.after moves).session.move (.turn (.resume 0))).session.lastError = .none := by
  intro moves
  have hcreate : create {} (.ok []) (.ok sampleAddress) = .ok sample := rfl
  have hrejected : sample.after moves = _ :=
    after_sampleDatagram joiningRun (by decide +kernel) (by decide +kernel) (by decide +kernel)
      (by decide +kernel)
  have hfinished : .finished 0 (.joined .connectRejected) ∈
      ((sample.after moves).session.move (.turn (.resume 0))).told := by
    apply mem_of_joinError?
    rw [hrejected]
    decide +kernel
  have hread := ((errors_read_once hcreate moves).2.2.1 (.turn (.resume 0))).1 0 .connectRejected
    hfinished (by simp) (by simp) (by simp)
  exact ⟨hcreate, hfinished, hread.1, hread.2.1⟩

end LocalPlay.Session
