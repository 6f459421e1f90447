import LocalPlay.Proofs.Session.Hosting
import LocalPlay.Proofs.Session.Stretches.Calm

/-!
# How calls begin to wait, go on, and end

A call that begins ends at once or waits for the first time: `Begins`. A call that looks whether it
can go on waits on unless it is stirred, and otherwise ends or waits for the next thing: `Resumes`.
It only goes on to wait for something else if a latch has let it through. Nothing else is to be done
first in either case.

With these every move keeps a session alert.
-/

namespace LocalPlay.Session

open Net Wire Overlay Timing

/-! ### What calls wait for, and for how long -/

/-- What a call waits for first. -/
inductive Call.First (timeouts : Timeouts) : Call → Option Nat → Pause → Prop
  | handshake (operation : Operation) :
    First timeouts (.operate operation) (some timeouts.failure) (.handshake operation)
  | operate (operation : Operation) :
    First timeouts (.operate operation) (some (operation.patience timeouts)) operation.pause
  | reject (removal : Removal) :
    First timeouts (.reject removal) (some timeouts.inactive) .rejectReply
  | stop : First timeouts .stop none (.cleanup false)
  | leaveAndStop : First timeouts .leaveAndStop none (.cleanup false)

/-- What a call waits for after it has been let through. -/
inductive Pause.Next (timeouts : Timeouts) : Pause → Nat → Pause → Prop
  | operate (operation : Operation) :
    Next timeouts (.handshake operation) (operation.patience timeouts) operation.pause
  | awaitAddress {pause : Pause} (hconfirmed : pause.confirmed?.isSome) (guest : Nat)
      (arrived : Option OverlayConfig) (outcome : Outcome) :
    Next timeouts pause timeouts.failure (.address guest arrived outcome)

theorem Operation.pause_ne_cleanup (operation : Operation) (ended : Bool) :
    operation.pause ≠ .cleanup ended := by
  cases operation with
  | _ => exact nofun

theorem Pause.Next.ne_cleanup {timeouts : Timeouts} {before pause : Pause} {timeout : Nat}
    (h : before.Next timeouts timeout pause) (ended : Bool) : pause ≠ .cleanup ended := by
  cases h with
  | operate operation => exact operation.pause_ne_cleanup ended
  | awaitAddress => exact nofun

namespace Act

/-! ### Calls that begin -/

/-- How a call begins. -/
inductive Begins (a : Act) (id : Nat) (call : Call) : Act → Prop
  | finishes {b : Act} (hcalm : Calm a b) (hfinished : ∃ outcome, .finished id outcome ∈ b.told) :
    Begins a id call b
  | pauses {b : Act} {timeout : Option Nat} {pause : Pause} (hcalm : Calm a b)
      (hfirst : call.First a.session.timeouts timeout pause)
      (hstops : pause = .cleanup false → b.session.receiver = .stopping (.call id)) :
    Begins a id call (b.pause id timeout pause)

section Beginning

variable {a b : Act}

theorem begins_beginOperation (a : Act) (id : Nat) (operation : Operation) :
    Begins a id (.operate operation) (a.beginOperation id operation) := by
  have hprepared := (Calm.refl a).prepare operation
  rw [beginOperation]
  split
  · obtain ⟨b, hrests, hoperate⟩ := (a.prepare operation).exists_operate_eq id operation
    rw [hoperate, hprepared.timeouts]
    exact .pauses (hprepared.rests hrests) (.operate operation)
      fun hpause => absurd hpause (operation.pause_ne_cleanup false)
  · rename_i hidle
    have hidle := Decidable.of_not_not hidle
    split
    · -- There is no transport, so nobody waits for the end of its receive loop.
      have hfault : Calm a ((a.prepare operation).update fun s => { s with receiver := .absent }) :=
        hprepared.session ⟨rfl, rfl, rfl, rfl⟩ (List.prefix_refl _) fun _ halert =>
          { halert with
            stops := fun w hw hpause => absurd hpause (halert.ne_cleanup_of_idle hidle w hw)
            ending := fun stopper hstopping => by cases hstopping
            closed := fun _ => .inl rfl }
      exact .finishes (hfault.rests ((Rests.refl _).giveUp id operation))
        (exists_finished_giveUp _ id operation)
    · have hopened : Calm a ((a.prepare operation).update fun s =>
          { s with
            receiver := .listening
            streams := []
            phase := .connecting
            transportOpen := true }) :=
        hprepared.session ⟨rfl, rfl, rfl, rfl⟩ (List.prefix_refl _) fun _ halert =>
          { halert with
            stops := fun w hw hpause => absurd hpause (halert.ne_cleanup_of_idle hidle w hw)
            ending := fun stopper hstopping => by cases hstopping
            closed := fun hidle => by cases hidle }
      have hasked := hopened.rests (((((Rests.refl _).tell .opened).lower .handshake).lower
        .relayError).post (some id) .relay (.hello (a.prepare operation).session.identity))
      rw [openLink, hprepared.timeouts]
      exact .pauses hasked (.handshake operation) fun hpause => by cases hpause

theorem begins_beginStop (hcalm : Calm a b) (id : Nat) {call : Call}
    (hfirst : call.First a.session.timeouts none (.cleanup false)) :
    Begins a id call (b.beginStop id) := by
  have hstopped := hcalm.stopReceiver (.call id)
  rw [beginStop]
  split
  · rename_i c hstop
    rw [hstop] at hstopped
    refine .pauses hstopped hfirst fun _ => ?_
    rw [stopReceiver] at hstop
    split at hstop
    · obtain ⟨ready, hwake, -, -⟩ :=
        (b.update fun s => { s with receiver := .stopping (.call id) }).exists_wake_eq .cleanup
      rw [← (Prod.mk.inj hstop).2, hwake]
      rfl
    · cases hstop
    · cases hstop
    · cases hstop
  · rename_i c hstop
    rw [hstop] at hstopped
    exact .finishes (hstopped.rests ((Rests.refl c).finish id .done)) ⟨_, List.mem_concat_self⟩

theorem begins_sendTraffic (a : Act) (id : Nat) (traffic : Traffic) :
    Begins a id (.sendTraffic traffic) (a.sendTraffic id traffic) := by
  rw [sendTraffic]
  split
  · exact .finishes ((Rests.refl a).finish id _).calm ⟨_, List.mem_concat_self⟩
  · split
    · exact .finishes (((Rests.refl a).post _ _ _).finish id _).calm ⟨_, List.mem_concat_self⟩
    · exact .finishes (((Rests.refl a).post _ _ _).finish id _).calm ⟨_, List.mem_concat_self⟩

theorem begins (a : Act) (id : Nat) (call : Call) : Begins a id call (a.begin id call) := by
  have hrests := Rests.refl a
  cases call with
  | operate operation => exact a.begins_beginOperation id operation
  | reject removal =>
    rw [begin]
    split
    · exact .pauses (((hrests.lower .rejectReply).lower .relayError).post _ _ _).calm
        (.reject removal) fun hpause => by cases hpause
    · exact .finishes (hrests.finish id _).calm ⟨_, List.mem_concat_self⟩
  | setAdvertiseData data =>
    exact .finishes ((hrests.postInNetwork id _).finish id .done).calm ⟨_, List.mem_concat_self⟩
  | setJoinPolicy policy =>
    exact .finishes ((hrests.postInNetwork id _).finish id .done).calm ⟨_, List.mem_concat_self⟩
  | leaveNetwork =>
    exact .finishes ((hrests.postInNetwork id _).leave.finish id .done).calm
      ⟨_, List.mem_concat_self⟩
  | stop => exact begins_beginStop (.refl a) id .stop
  | leaveAndStop => exact begins_beginStop (Calm.refl a).disableIdle id .leaveAndStop
  | sendTraffic traffic => exact a.begins_sendTraffic id traffic

end Beginning

/-! ### Calls that go on -/

/-- A call that goes on ends, unless a latch has let it through to wait for something else. -/
inductive GoesOn (a : Act) (call : Nat) (index : Option Nat) (before : Pause) : Act → Prop
  | finishes {b : Act} (hrests : Rests a b)
      (hfinished : ∃ outcome, .finished call outcome ∈ b.told) :
    GoesOn a call index before b
  | pauses {b : Act} {timeout : Nat} {pause : Pause} (hindex : index.isSome = true)
      (hrests : Rests a b) (hnext : before.Next a.session.timeouts timeout pause) :
    GoesOn a call index before (b.pause call (some timeout) pause)

section GoingOn

variable {a b : Act} {call : Nat} {index : Option Nat} {before : Pause}

theorem Rests.receiver (h : Rests a b) : b.session.receiver = a.session.receiver :=
  congrArg Affairs.receiver h.affairs

theorem Rests.timeouts (h : Rests a b) : b.session.timeouts = a.session.timeouts :=
  congrArg Affairs.timeouts h.affairs

theorem Rests.finishesCall (h : Rests a b) (outcome : Outcome) :
    GoesOn a call index before (b.finish call outcome) :=
  .finishes (h.finish call outcome) ⟨outcome, List.mem_concat_self⟩

theorem Rests.awaitsAddress (h : Rests a b) (hindex : index.isSome = true)
    (hconfirmed : before.confirmed?.isSome) (outcome : Outcome) :
    GoesOn a call index before (b.awaitAddress call outcome) := by
  rw [awaitAddress]
  split
  · rw [h.timeouts]
    exact .pauses hindex h (.awaitAddress hconfirmed _ _ outcome)
  · exact h.finishesCall outcome

/-- Calls that wait for latches go on like this; the others have no more to do. -/
theorem goesOn (a : Act) (call : Nat) (index : Option Nat) (hawaited : before.awaited ≠ []) :
    GoesOn a call index before (a.goOn call index before) := by
  have hrests := Rests.refl a
  cases before with
  | handshake operation =>
    rw [goOn]
    split
    · rename_i hgreeted
      obtain ⟨b, hasked, hoperate⟩ :=
        (a.updatePassphrase call).exists_operate_eq call operation
      have hupdated := hrests.updatePassphrase call
      rw [hoperate, hupdated.timeouts]
      refine .pauses ?_ (hupdated.trans hasked) (.operate operation)
      rw [hgreeted.2]
      rfl
    · exact .finishes (hrests.takeError.giveUp call operation)
        (exists_finished_giveUp _ call operation)
  | scanReplies => exact hrests.takeError.finishesCall _
  | confirmation =>
    have hallowed : Rests a (if a.session.p2p then a else a.disposeHost) := by
      split
      · exact hrests
      · exact hrests.disposeHost
    rw [goOn]
    split
    · rename_i hindex
      exact hallowed.awaitsAddress hindex rfl _
    · exact hallowed.disposeHost.finishesCall _
  | joinReply =>
    rw [goOn]
    dsimp only
    split
    · exact hrests.takeError.finishesCall _
    · split
      · exact hrests.takeError.finishesCall _
      · rename_i hfirst
        refine hrests.takeError.awaitsAddress ?_ rfl _
        rw [Decidable.of_not_not hfirst]
        rfl
  | rejectReply => exact hrests.takeError.finishesCall _
  | address guest arrived outcome => exact absurd rfl hawaited
  | cleanup ended => exact absurd rfl hawaited

end GoingOn

/-- What comes of a call that looks whether it can go on. -/
inductive Resumes (a : Act) (call : Nat) : Act → Prop
  | absent (hnone : ∀ w ∈ a.session.waiting, w.id ≠ call) : Resumes a call a
  | waitsOn {w : Waiting} (hfind : a.session.waiting.find? (·.id == call) = some w)
      (hstill : ¬ a.session.Stirs w) : Resumes a call a
  | finishes {w : Waiting} {latches : Latches Signal} {b : Act}
      (hfind : a.session.waiting.find? (·.id == call) = some w)
      (hlowered : ∀ signal, latches.isRaised signal = true →
        a.session.latches.isRaised signal = true)
      (hrests : Rests (a.endWait call latches) b)
      (hfinished : ∃ outcome, .finished call outcome ∈ b.told) : Resumes a call b
  | pauses {w : Waiting} {latches : Latches Signal} {b : Act} {timeout : Nat} {pause : Pause}
      (hfind : a.session.waiting.find? (·.id == call) = some w)
      (hraised : ∃ signal ∈ w.pause.awaited, a.session.latches.isRaised signal = true)
      (hlowered : ∀ signal, latches.isRaised signal = true →
        a.session.latches.isRaised signal = true)
      (hrests : Rests (a.endWait call latches) b)
      (hnext : w.pause.Next a.session.timeouts timeout pause) :
    Resumes a call (b.pause call (some timeout) pause)

section Looking

variable {a : Act} {call : Nat} {w : Waiting}

/-- A call that waits for latches goes on, with a latch that lets it through or with none. -/
theorem Resumes.goOn {latches : Latches Signal} {index : Option Nat}
    (hfind : a.session.waiting.find? (·.id == call) = some w) (hawaited : w.pause.awaited ≠ [])
    (hraised : index.isSome = true →
      ∃ signal ∈ w.pause.awaited, a.session.latches.isRaised signal = true)
    (hlowered : ∀ signal, latches.isRaised signal = true →
      a.session.latches.isRaised signal = true) :
    Resumes a call ((a.endWait call latches).goOn call index w.pause) := by
  have hgoes := (a.endWait call latches).goesOn call index hawaited
  generalize (a.endWait call latches).goOn call index w.pause = b at hgoes ⊢
  cases hgoes with
  | finishes hrests hfinished => exact .finishes hfind hlowered hrests hfinished
  | pauses hindex hrests hnext => exact .pauses hfind (hraised hindex) hlowered hrests hnext

theorem not_stirs_of_glance_waiting {s : Session} {latches : Latches Signal}
    (hawaited : w.pause.awaited ≠ [])
    (hglance : s.latches.glance Signal.once w.pause.awaited (w.deadline.any (· ≤ s.clock)) =
      (.waiting, latches)) : ¬ s.Stirs w := by
  obtain ⟨hdown, hahead⟩ := Latches.glance_waiting hglance
  rintro (⟨-, hover⟩ | hanswered | ⟨signal, hsignal, hraised⟩)
  · exact Bool.false_ne_true (hahead.symm.trans hover)
  · cases hpause : w.pause with
    | address guest arrived outcome => exact hawaited (by rw [hpause]; rfl)
    | cleanup ended => exact hawaited (by rw [hpause]; rfl)
    | _ =>
      rw [hpause] at hanswered
      cases hanswered
  · exact Bool.false_ne_true ((hdown signal hsignal).symm.trans hraised)

theorem resumes (a : Act) (call : Nat) : Resumes a call (a.resume call) := by
  rw [resume]
  cases hfind : a.session.waiting.find? (·.id == call) with
  | none =>
    refine .absent fun w hw hid => ?_
    exact absurd (beq_iff_eq.mpr hid) (List.find?_eq_none.mp hfind w hw)
  | some w =>
    have hended := Rests.refl (a.endWait call a.session.latches)
    dsimp only
    split
    · rename_i ended hpause
      split
      · exact .finishes hfind (fun _ hraised => hraised) (hended.finish call .done)
          ⟨_, List.mem_concat_self⟩
      · rename_i hwaiting
        refine .waitsOn hfind ?_
        simp [Stirs, hpause, Pause.isLimited, Pause.isAnswered, Pause.awaited, hwaiting]
    · rename_i guest arrived outcome hpause
      split
      · have harrived := hended.update (f := fun s => { s with overlay := arrived }) rfl
        exact .finishes hfind (fun _ hraised => hraised) (harrived.finish call outcome)
          ⟨_, List.mem_concat_self⟩
      · rename_i hwaiting
        rw [not_or] at hwaiting
        refine .waitsOn hfind ?_
        rw [Stirs, hpause]
        rintro (⟨-, hover⟩ | hanswered | ⟨signal, hsignal, -⟩)
        · exact hwaiting.2 hover
        · exact hwaiting.1 hanswered
        · cases hsignal
    · rename_i hcleanup haddress
      have hawaited : w.pause.awaited ≠ [] := by
        cases hpause : w.pause with
        | address guest arrived outcome => exact absurd hpause (haddress guest arrived outcome)
        | cleanup ended => exact absurd hpause (hcleanup ended)
        | _ => exact List.cons_ne_nil _ _
      generalize hglance : a.session.latches.glance Signal.once w.pause.awaited _ = result
      obtain ⟨glance, latches⟩ := result
      cases glance with
      | fired index =>
        obtain ⟨name, hname, hraised, -⟩ := Latches.glance_fired hglance
        exact .goOn hfind hawaited (fun _ => ⟨name, List.mem_of_getElem? hname, hraised⟩)
          fun _ => Latches.isRaised_of_glance_fired hglance
      | timedOut =>
        obtain ⟨-, -, rfl⟩ := Latches.glance_timedOut hglance
        exact .goOn hfind hawaited (fun hnone => absurd hnone Bool.false_ne_true)
          fun _ hraised => hraised
      | waiting => exact .waitsOn hfind (not_stirs_of_glance_waiting hawaited hglance)

end Looking

/-! ### The end of the receive loop -/

/-- What comes of the receive loop that looks whether it was told to stop. -/
inductive Cleans (a : Act) : Act → Prop
  | nothing (hother : ∀ stopper, a.session.receiver ≠ .stopping stopper) : Cleans a a
  | idle {b : Act} (hrests : Rests a b)
      (hreceiver : a.session.receiver = .stopping .idleCountdown) :
    Cleans a { session := b.session.unlinked .absent, told := b.told ++ [.closed] }
  | call {b : Act} {id : Nat} (hrests : Rests a b)
      (hreceiver : a.session.receiver = .stopping (.call id)) :
    Cleans a
      { session := ({ b.session with
          waiting := b.session.waiting.map (·.released id)
          ready := (b.wake (.resume id)).session.ready } : Session).unlinked .absent
        told := b.told ++ [.closed] }

theorem wake_eq_ite (a : Act) (activity : Activity) : a.wake activity =
    { a with session := { a.session with
        ready := if activity ∈ a.session.ready then a.session.ready
          else a.session.ready ++ [activity] } } := by
  rw [wake, update]
  split
  · rfl
  · rfl

theorem cleans (a : Act) : Cleans a a.cleanup := by
  have hleft := (Rests.refl a).leave
  rw [cleanup]
  split
  · rename_i stopper hreceiver
    rw [close_eq]
    cases stopper with
    | idleCountdown => exact .idle hleft hreceiver
    | call id =>
      -- The call is woken last, but before the rest it would be woken in the same way.
      have hcall := Cleans.call hleft hreceiver
      rw [wake_eq_ite] at hcall
      dsimp only
      rw [wake_eq_ite]
      exact hcall
  · rename_i hother
    exact .nothing hother

/-! ### Turns -/

section Turns

variable {a : Act} {call : Nat}

theorem alert_pause (h : a.session.Alert none) (timeout : Option Nat) {pause : Pause}
    (hstops : pause = .cleanup false → a.session.receiver = .stopping (.call call)) :
    (a.pause call timeout pause).session.Alert none := by
  have hwoken := h.woken (List.subset_cons_self (.resume call) a.session.ready)
  refine { hwoken with calls := fun w hw hstirs => ?_, stops := fun w hw hpause => ?_ }
  · rcases List.mem_append.mp hw with hw | hw
    · exact hwoken.calls w hw hstirs
    · obtain rfl := List.mem_singleton.mp hw
      exact .inl List.mem_cons_self
  · rcases List.mem_append.mp hw with hw | hw
    · exact hwoken.stops w hw hpause
    · obtain rfl := List.mem_singleton.mp hw
      exact hstops hpause

theorem alert_begin (h : a.session.Alert none) (id : Nat) (call : Call) :
    (a.begin id call).session.Alert none := by
  have hbegins := a.begins id call
  generalize a.begin id call = b at hbegins ⊢
  cases hbegins with
  | finishes hcalm => exact hcalm.alert none h
  | pauses hcalm _ hstops => exact alert_pause (hcalm.alert none h) _ hstops

/-- A call that has its turn has not to be woken if nothing stirs it. -/
theorem looked {s : Session} (h : s.Alert (some (.resume call)))
    (hcalls : ∀ w ∈ s.waiting, s.Stirs w → w.id ≠ call) : s.Alert none := by
  refine h.turned (fun w hw hstirs hsame => ?_) (by simp) (by simp)
  exact hcalls w hw hstirs (Activity.resume.inj hsame).symm

theorem alert_endWait (h : a.session.Alert (some (.resume call))) {latches : Latches Signal}
    (hlowered : ∀ signal, latches.isRaised signal = true →
      a.session.latches.isRaised signal = true) :
    (a.endWait call latches).session.Alert none := by
  have hstirs {w : Waiting} (hstirs : (a.endWait call latches).session.Stirs w) :
      a.session.Stirs w :=
    hstirs.imp id fun hstirs => hstirs.imp id fun ⟨signal, hawaited, hraised⟩ =>
      ⟨signal, hawaited, hlowered signal hraised⟩
  have hleft : (a.endWait call latches).session.Alert (some (.resume call)) :=
    { h with
      calls := fun w hw hw' => h.calls w (List.mem_filter.mp hw).1 (hstirs hw')
      stops := fun w hw => h.stops w (List.mem_filter.mp hw).1 }
  exact looked hleft fun w hw _ => of_decide_eq_true (List.mem_filter.mp hw).2

theorem alert_resume (h : a.session.Alert (some (.resume call)))
    (hnumbered : Numbered (a.session.waiting.map (·.id)) a.session.calls) :
    (a.resume call).session.Alert none := by
  have hresumes := a.resumes call
  generalize a.resume call = b at hresumes ⊢
  cases hresumes with
  | absent hnone => exact looked h fun w hw _ => hnone w hw
  | waitsOn hfind hstill =>
    refine looked h fun w hw hstirs hid => ?_
    rw [← hid, hnumbered.find?_eq hw] at hfind
    exact hstill (Option.some.inj hfind ▸ hstirs)
  | finishes _ hlowered hrests => exact hrests.calm.alert none (alert_endWait h hlowered)
  | pauses _ _ hlowered hrests hnext =>
    exact alert_pause (hrests.calm.alert none (alert_endWait h hlowered)) _
      fun hpause => absurd hpause (hnext.ne_cleanup false)

theorem alert_cleanup (h : a.session.Alert (some .cleanup)) : a.cleanup.session.Alert none := by
  have hhand {s : Session} : ∀ activity, activity ≠ .cleanup → s.AtHand (some .cleanup) activity →
      s.AtHand none activity := fun activity hother hhand =>
    hhand.imp id fun hcurrent => absurd (Option.some.inj hcurrent).symm hother
  have hcleans := a.cleans
  generalize a.cleanup = b at hcleans ⊢
  cases hcleans with
  | nothing hother =>
    refine h.turned (by simp) (fun stopper hstopping => ?_) (by simp)
    exact absurd hstopping (hother stopper)
  | @idle b hrests hreceiver =>
    have halert := hrests.calm.alert _ h
    have hnone := halert.ne_cleanup (by simp [hrests.receiver, hreceiver])
    exact halert.unlink hnone hhand (.inl rfl)
  | @call b id hrests hreceiver =>
    obtain ⟨ready, hwake, hkept, hmem⟩ := b.exists_wake_eq (.resume id)
    have halert := (hrests.calm.alert _ h).release id hkept hmem
    rw [hwake]
    refine halert.unlink (fun w hw hpause => ?_) hhand (.inl rfl)
    have hown : w.id = id := by
      have hsame := (halert.stops w hw hpause).symm.trans (hrests.receiver.trans hreceiver)
      simpa using hsame
    obtain ⟨old, hold, rfl⟩ := List.mem_map.mp hw
    rw [old.id_released id] at hown
    rw [Waiting.released] at hpause
    split at hpause
    · rw [if_pos hown] at hpause
      cases hpause
    · rename_i hother
      exact hother false hpause

theorem alert_perform {activity : Activity} (h : a.session.Alert (some activity))
    (hnumbered : Numbered (a.session.waiting.map (·.id)) a.session.calls) :
    (a.perform activity).session.Alert none := by
  cases activity with
  | resume call => exact alert_resume h hnumbered
  | cleanup => exact alert_cleanup h
  | idleStop =>
    have hidle := h.turned (by simp) (by simp) (by simp)
    exact ((Calm.refl a).stopReceiver .idleCountdown).alert none hidle
  | host job =>
    rw [perform, atHost]
    split
    · rename_i host hhost
      refine alert_adopt h hhost (.perform a.session.clock a.session.link job) ?_
      rintro activity ⟨⟩
      refine .inr ⟨job, rfl, fun applicant hmem hlook => ?_⟩
      subst hlook
      exact (h.hosted host hhost).lt_deadline hmem
    · rename_i hnone
      refine h.turned (by simp) (by simp) fun host hhost => ?_
      exact absurd (hhost.symm.trans hnone) (Option.some_ne_none host)

end Turns

end Act

/-! ### Moves -/

/-- At a later time whoever's time is over then is ready as well. -/
theorem exists_reach_eq (s : Session) (time : Nat) :
    ∃ ready, s.reach time = { s with clock := time, idle := (s.idle.reach time).2, ready } ∧
      s.ready ⊆ ready ∧
      (∀ w ∈ s.waiting, w.deadline.any (· ≤ time) = true → .resume w.id ∈ ready) ∧
      ∀ host, s.hosted = some host → ∀ applicant ∈ host.applicants, applicant.deadline ≤ time →
        .host (.consider applicant.id) ∈ ready := by
  obtain ⟨ready, hwake, hkept, hwoken⟩ := Act.exists_foldl_wake_eq id
    (((s.waiting.filter (·.deadline.any (· ≤ time))).map fun w => .resume w.id) ++
      (s.hosted.toList.flatMap (·.overdue time)).map .host ++
      if (s.idle.reach time).1 then [.idleStop] else [])
    { session := { s with clock := time, idle := (s.idle.reach time).2 } }
  refine ⟨ready, congrArg Act.session hwake, hkept, fun w hw hover => ?_,
    fun host hhost applicant hmem hover => ?_⟩
  · refine hwoken _ (List.mem_append_left _ (List.mem_append_left _ ?_))
    exact List.mem_map.mpr ⟨w, List.mem_filter.mpr ⟨hw, hover⟩, rfl⟩
  · refine hwoken _ (List.mem_append_left _ (List.mem_append_right _ ?_))
    rw [hhost, Option.toList_some, List.flatMap_singleton, Host.overdue]
    refine List.mem_map_of_mem (List.mem_map.mpr ⟨applicant, ?_, rfl⟩)
    exact List.mem_filter.mpr ⟨hmem, decide_eq_true hover⟩

theorem alert_reach {s : Session} (h : s.Alert none) (time : Nat) : (s.reach time).Alert none := by
  obtain ⟨ready, hreach, hkept, hcalls, happlicants⟩ := s.exists_reach_eq time
  have hhand {activity : Activity} (hhand : s.AtHand none activity) :
      activity ∈ ready ∨ none = some activity := hhand.imp (fun hmem => hkept hmem) id
  rw [hreach]
  exact {
    calls := fun w hw hstirs => by
      rcases hstirs with hover | hstirs
      · exact .inl (hcalls w hw hover.2)
      · exact hhand (h.calls w hw (.inr hstirs))
    stops := h.stops
    ending := fun stopper hstopping => hhand (h.ending stopper hstopping)
    closed := h.closed
    idle := fun deadline hdeadline => by
      have hahead : (s.idle.reach time).2.deadline = some deadline := hdeadline
      rw [Countdown.reach] at hahead
      split at hahead
      · cases hahead
      · rename_i hover
        rw [Countdown.isOver, hahead, Option.any_some, decide_eq_true_iff] at hover
        exact Nat.lt_of_not_le hover
    hosted := h.hosted
    applicants := fun host hhost applicant hmem hover =>
      .inl (happlicants host hhost applicant hmem hover) }

/-- Whatever happens but a new call leaves calls as they are. -/
theorem calm_event (s : Session) {event : Event} (hevent : ∀ call, event ≠ .call call) :
    Act.Calm { session := s } (s.move (.event event)) := by
  have hstart := Act.Calm.refl { session := s }
  cases event with
  | call call => exact absurd rfl (hevent call)
  | datagram sender bytes =>
    rw [move, happen]
    split
    · exact hstart.receive sender bytes
    · exact hstart
  | receiveError error =>
    rw [move, happen]
    split
    · rename_i hlistening
      exact hstart.receiveFailed (decide_eq_true_eq.mp hlistening).2.2 error
    · exact hstart
  | setPassphrase text =>
    rw [move, happen]
    split
    · exact ⟨⟨rfl, rfl, rfl, rfl, List.prefix_refl _⟩, fun _ halert => { halert with }⟩
    · exact hstart
  | setGameVersion version =>
    exact ⟨⟨rfl, rfl, rfl, rfl, List.prefix_refl _⟩, fun _ halert => { halert with }⟩
  | setOpenFault error =>
    exact ⟨⟨rfl, rfl, rfl, rfl, List.prefix_refl _⟩, fun _ halert => { halert with }⟩
  | setFault target error =>
    exact ⟨⟨rfl, rfl, rfl, rfl, List.prefix_refl _⟩, fun _ halert => { halert with }⟩

/-- Every move keeps a session alert. -/
theorem alert_move {s : Session} (h : s.Alert none)
    (hnumbered : Numbered (s.waiting.map (·.id)) s.calls) (m : Move) :
    (s.move m).session.Alert none := by
  cases m with
  | reach time => exact alert_reach h time
  | turn activity =>
    rw [move]
    split
    · have hhand {other : Activity} (hhand : s.AtHand none other) :
          AtHand { s with ready := s.ready.erase activity } (some activity) other := by
        by_cases hother : activity = other
        · exact .inr (congrArg some hother)
        · refine .inl ((List.mem_erase_of_ne (Ne.symm hother)).mpr ?_)
          rcases hhand with hmem | hnone
          · exact hmem
          · cases hnone
      refine Act.alert_perform (a := { session := { s with ready := s.ready.erase activity } })
        { h with
          calls := fun w hw hstirs => hhand (h.calls w hw hstirs)
          ending := fun stopper hstopping => hhand (h.ending stopper hstopping)
          applicants := fun host hhost applicant hmem hover =>
            hhand (h.applicants host hhost applicant hmem hover) } hnumbered
    · exact h
  | event event =>
    cases event with
    | call call =>
      exact Act.alert_begin (a := { session := { s with calls := s.calls + 1 } }) { h with } _ call
    | _ => exact (s.calm_event (by simp)).alert none h

/-- What every session has, however it was used. -/
structure Sound (s : Session) : Prop where
  alert : s.Alert none
  numbered : Numbered (s.waiting.map (·.id)) s.calls

theorem Sound.move {s : Session} (h : s.Sound) (m : Move) : (s.move m).session.Sound :=
  ⟨alert_move h.alert h.numbered m, (steps_move s m).numbered h.numbered h.numbered⟩

theorem Sound.after {s : Session} (h : s.Sound) (moves : List Move) :
    (s.after moves).session.Sound := by
  induction moves using List.reverseRecOn with
  | nil => exact h
  | append_singleton moves m ih =>
    rw [after_concat]
    exact ih.move m

end LocalPlay.Session
