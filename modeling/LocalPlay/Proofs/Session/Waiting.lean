import LocalPlay.Proofs.Session.Creation
import LocalPlay.Proofs.Session.Patience
import LocalPlay.Proofs.Session.Stretches.Readings

/-!
# Who waits after a move

In a move those who wait are the same as before, up to what has arrived for them, or one is there no
longer, or one has begun to wait, for the first thing or for the next: `Queues`. So a call that
waits for latches waits on with its deadline in every move but its own turn, and who waits has
waited before if he has not begun to in this move. In a punctual run the clock does not pass the
deadline of a call while it waits.
-/

namespace LocalPlay.Session

open Net Wire Overlay Timing

/-- Who waits after a move, and what time it is then. -/
inductive Queues (s : Session) : Move → Session → Prop
  | reach {t : Session} {time : Nat} (hclock : t.clock = time) (hwaiting : t.waiting = s.waiting) :
    Queues s (.reach time) t
  | same {m : Move} {t : Session} (hclock : t.clock = s.clock)
      (hbare : t.waiting.map (·.bare) = s.waiting.map (·.bare)) : Queues s m t
  | begins {call : Call} {timeout : Option Nat} {pause : Pause} {t : Session}
      {others : List Waiting} (hclock : t.clock = s.clock)
      (hfirst : call.First s.timeouts timeout pause)
      (hwaiting : t.waiting = others ++ [⟨s.calls, timeout.map (s.clock + ·), pause⟩])
      (hbare : others.map (·.bare) = s.waiting.map (·.bare)) : Queues s (.event (.call call)) t
  | ends {call : Nat} {t : Session} (hclock : t.clock = s.clock)
      (hwaiting : t.waiting = s.waiting.filter (·.id ≠ call)) : Queues s (.turn (.resume call)) t
  | goesOn {w : Waiting} {timeout : Nat} {pause : Pause} {t : Session} (hclock : t.clock = s.clock)
      (hw : w ∈ s.waiting) (hnext : w.pause.Next s.timeouts timeout pause)
      (hwaiting : t.waiting =
        s.waiting.filter (·.id ≠ w.id) ++ [⟨w.id, some (s.clock + timeout), pause⟩]) :
    Queues s (.turn (.resume w.id)) t

/-- Where a wait comes from. -/
inductive Arises (s : Session) (m : Move) (v : Waiting) : Prop
  | before {w : Waiting} (hw : w ∈ s.waiting) (hbare : v.bare = w.bare)
  | begins {call : Call} {timeout : Option Nat} (hmove : m = .event (.call call))
      (hid : v.id = s.calls) (hfirst : call.First s.timeouts timeout v.pause)
      (hdeadline : v.deadline = timeout.map (s.clock + ·))
  | goesOn {w : Waiting} {timeout : Nat} (hmove : m = .turn (.resume v.id)) (hw : w ∈ s.waiting)
      (hid : w.id = v.id) (hnext : w.pause.Next s.timeouts timeout v.pause)
      (hdeadline : v.deadline = some (s.clock + timeout))

variable {s : Session} {m : Move} {v w : Waiting}

/-! ### Moves -/

theorem queues_begin (s : Session) (call : Call) :
    s.Queues (.event (.call call)) (s.move (.event (.call call))).session := by
  have hbegins := Act.begins { session := { s with calls := s.calls + 1 } } s.calls call
  show s.Queues _ (Act.begin _ s.calls call).session
  generalize Act.begin _ s.calls call = b at hbegins ⊢
  cases hbegins with
  | finishes hcalm => exact .same hcalm.clock hcalm.waiting
  | @pauses b timeout pause hcalm hfirst =>
    have hclock : b.session.clock = s.clock := hcalm.clock
    refine .begins hclock hfirst ?_ hcalm.waiting
    rw [← hclock]
    rfl

theorem queues_resume (s : Session) (call : Nat) : s.Queues (.turn (.resume call))
    (({ session := { s with ready := s.ready.erase (.resume call) } } :
      Act).resume call).session := by
  have hresumes :=
    Act.resumes { session := { s with ready := s.ready.erase (.resume call) } } call
  generalize Act.resume _ call = b at hresumes ⊢
  cases hresumes with
  | absent => exact .same rfl rfl
  | waitsOn => exact .same rfl rfl
  | finishes _ _ hrests =>
    exact .ends (congrArg Affairs.clock hrests.affairs) (congrArg Affairs.waiting hrests.affairs)
  | @pauses w latches b timeout pause hfind _ _ hrests hnext =>
    obtain rfl : w.id = call := key_of_find? hfind
    have hwaiting : b.session.waiting = s.waiting.filter (·.id ≠ w.id) :=
      congrArg Affairs.waiting hrests.affairs
    have hclock : b.session.clock = s.clock := congrArg Affairs.clock hrests.affairs
    refine .goesOn hclock (List.mem_of_find?_eq_some hfind) hnext ?_
    rw [← hwaiting, ← hclock]
    rfl

theorem queues (s : Session) (m : Move) : s.Queues m (s.move m).session := by
  have hframes {b : Act} {t : Session} (hclock : t.clock = s.clock)
      (hwaiting : t.waiting = s.waiting) (h : Act.Frames { session := t } b) :
      s.Queues m b.session :=
    .same (h.clock.trans hclock) (h.waiting.trans (congrArg _ hwaiting))
  cases m with
  | reach time =>
    obtain ⟨ready, hreach, -⟩ := s.exists_reach_eq time
    rw [move, hreach]
    exact .reach rfl rfl
  | turn activity =>
    let turned : Session := { s with ready := s.ready.erase activity }
    rw [move]
    split
    · cases activity with
      | resume call => exact s.queues_resume call
      | cleanup => exact hframes (t := turned) rfl rfl (Act.frames_cleanup _)
      | idleStop =>
        exact hframes (t := turned) rfl rfl ((Act.Calm.refl _).stopReceiver _).toFrames
      | host job => exact hframes (t := turned) rfl rfl (Act.frames_atHost _ job)
    · exact .same rfl rfl
  | event event =>
    cases event with
    | call call => exact s.queues_begin call
    | _ => exact hframes rfl rfl (s.calm_event (by simp)).toFrames

/-- Only one kind of move takes time. -/
theorem clock_move (hmove : ∀ time, m ≠ .reach time) : (s.move m).session.clock = s.clock := by
  have hqueues := s.queues m
  generalize (s.move m).session = t at hqueues ⊢
  cases hqueues with
  | reach => exact absurd rfl (hmove _)
  | _ => assumption

theorem arises (hv : v ∈ (s.move m).session.waiting) : s.Arises m v := by
  have hqueues := s.queues m
  generalize (s.move m).session = t at hqueues hv
  have hold {others : List Waiting} (hbare : others.map (·.bare) = s.waiting.map (·.bare))
      (hv : v ∈ others) : s.Arises m v := by
    obtain ⟨w, hw, hsame⟩ := Waiting.exists_of_bare hbare hv
    exact .before hw hsame.symm
  cases hqueues with
  | reach _ hwaiting => exact .before (hwaiting ▸ hv) rfl
  | same _ hbare => exact hold hbare hv
  | begins _ hfirst hwaiting hbare =>
    rw [hwaiting, List.mem_append, List.mem_singleton] at hv
    rcases hv with hv | rfl
    · exact hold hbare hv
    · exact .begins rfl rfl hfirst rfl
  | ends _ hwaiting =>
    rw [hwaiting] at hv
    exact .before (List.mem_filter.mp hv).1 rfl
  | goesOn _ hw hnext hwaiting =>
    rw [hwaiting, List.mem_append, List.mem_singleton] at hv
    rcases hv with hv | rfl
    · exact .before (List.mem_filter.mp hv).1 rfl
    · exact .goesOn rfl hw rfl hnext rfl

/-- After the handshake a call waits for its answer, and after a confirmation for an address. -/
theorem Pause.Next.cases {timeouts : Timeouts} {before pause : Pause} {timeout : Nat}
    (h : before.Next timeouts timeout pause) :
    (∃ operation, before = .handshake operation ∧ pause = operation.pause ∧
      timeout = operation.patience timeouts) ∨
    before.confirmed?.isSome = true ∧ pause.promised?.isSome = true := by
  cases h with
  | operate operation => exact .inl ⟨operation, rfl, rfl, rfl⟩
  | awaitAddress hconfirmed => exact .inr ⟨hconfirmed, rfl⟩

/-! ### Calls that wait for latches -/

theorem Waiting.id_of_bare (hbare : v.bare = w.bare) : v.id = w.id := by
  show v.bare.id = w.bare.id
  rw [hbare]

/-- Nothing arrives for a call that waits for latches. -/
theorem Waiting.eq_of_bare (hawaited : w.pause.awaited ≠ []) (hbare : v.bare = w.bare) : v = w := by
  have hplain {w : Waiting} (hawaited : w.pause.awaited ≠ []) : w.bare = w := by
    obtain ⟨id, deadline, pause⟩ := w
    cases pause with
    | address guest arrived outcome => exact absurd rfl hawaited
    | cleanup ended => exact absurd rfl hawaited
    | _ => rfl
  have hsame : v.pause.awaited ≠ [] := by rwa [← v.awaited_bare, hbare, w.awaited_bare]
  exact (hplain hsame).symm.trans (hbare.trans (hplain hawaited))

/-- A call that waits for latches waits on until its own turn. -/
theorem waits_on (hw : w ∈ s.waiting) (hawaited : w.pause.awaited ≠ [])
    (hother : m ≠ .turn (.resume w.id)) : w ∈ (s.move m).session.waiting := by
  have hqueues := s.queues m
  generalize (s.move m).session = t at hqueues ⊢
  have hkept {others : List Waiting} (hbare : others.map (·.bare) = s.waiting.map (·.bare)) :
      w ∈ others := by
    obtain ⟨v, hv, hsame⟩ := Waiting.exists_of_bare hbare.symm hw
    rwa [← Waiting.eq_of_bare hawaited hsame]
  have hleft {call : Nat} (hcall : w.id ≠ call) : w ∈ s.waiting.filter (·.id ≠ call) :=
    List.mem_filter.mpr ⟨hw, decide_eq_true hcall⟩
  cases hqueues with
  | reach _ hwaiting => rwa [hwaiting]
  | same _ hbare => exact hkept hbare
  | begins _ _ hwaiting hbare =>
    rw [hwaiting]
    exact List.mem_append_left _ (hkept hbare)
  | ends _ hwaiting =>
    rw [hwaiting]
    exact hleft fun hid => hother (hid ▸ rfl)
  | goesOn _ _ _ hwaiting =>
    rw [hwaiting]
    exact List.mem_append_left _ (hleft fun hid => hother (hid ▸ rfl))

/-- A call that waits for nothing after this waits on, or ends on its own turn. -/
theorem waits_on_or_ends (hnumbered : Numbered (s.waiting.map (·.id)) s.calls) (hw : w ∈ s.waiting)
    (hawaited : w.pause.awaited ≠ [])
    (hlast : ∀ t index, (w.pause.verdict? t index).isSome = true) (m : Move) :
    w ∈ (s.move m).session.waiting ∨ ∃ outcome, m = .turn (.resume w.id) ∧
      s.verdict? w.id = some outcome ∧ .finished w.id outcome ∈ (s.move m).told := by
  by_cases hown : m = .turn (.resume w.id)
  · subst hown
    by_cases hready : .resume w.id ∈ s.ready
    · have hlooks := Act.looks w.id { session := { s with ready := s.ready.erase (.resume w.id) } }
      have hreports := s.reports_move (.turn (.resume w.id))
      rw [verdicts, if_pos hready] at hreports
      have hsame : Session.verdict? { s with ready := s.ready.erase (.resume w.id) } w.id =
        s.verdict? w.id := rfl
      rw [hsame] at hlooks
      cases hverdict : s.verdict? w.id with
      | some outcome =>
        refine .inr ⟨outcome, rfl, rfl, ?_⟩
        rw [← mem_reports, hreports, hverdict]
        exact List.mem_singleton_self _
      | none =>
        have hmove : s.move (.turn (.resume w.id)) = Act.resume _ w.id := if_pos hready
        rw [hverdict] at hlooks
        rw [hmove]
        generalize Act.resume _ w.id = b at hlooks ⊢
        generalize hnone : none = verdict at hlooks
        cases hlooks with
        | still => exact .inl hw
        | ends => cases hnone
        | @goesOn v latches index hfind =>
          obtain rfl : w = v := Option.some.inj ((hnumbered.find?_eq hw).symm.trans hfind)
          have hsome := hlast { s with ready := s.ready.erase (.resume w.id) } index
          rw [← hnone] at hsome
          cases hsome
    · rw [move, if_neg hready]
      exact .inl hw
  · exact .inl (waits_on hw hawaited hown)

/-! ### Runs -/

/-- The call that begins now does not wait yet. -/
theorem Sound.not_yet (h : s.Sound) (hw : w ∈ s.waiting) : w.id ≠ s.calls :=
  Nat.ne_of_lt (h.numbered.below _ (List.mem_map_of_mem hw))

/-- In a punctual run the clock does not pass the deadline of a call that waits all the time. -/
theorem clock_le_of_waits {later : List Move}
    (hwaits : ∀ between, between <+: later → w ∈ (s.after between).session.waiting)
    {deadline : Nat} (hdeadline : w.deadline = some deadline) (hclock : s.clock ≤ deadline)
    (hpunctual : s.Punctual later) : (s.after later).session.clock ≤ deadline := by
  induction later using List.reverseRecOn with
  | nil => exact hclock
  | append_singleton later m ih =>
    obtain ⟨hbefore, hlast⟩ := punctual_append.mp hpunctual
    have hearlier := ih (fun between hbetween =>
      hwaits between (hbetween.trans (List.prefix_append _ _))) hbefore
    rw [after_concat]
    show ((s.after later).session.move m).session.clock ≤ deadline
    by_cases hreach : ∃ time, m = .reach time
    · obtain ⟨time, rfl⟩ := hreach
      obtain ⟨ready, heq, -⟩ := (s.after later).session.exists_reach_eq time
      rw [move, heq]
      exact hlast [] time [] rfl w (hwaits later (List.prefix_append _ _)) deadline hdeadline
    · rwa [clock_move fun time hmove => hreach ⟨time, hmove⟩]

/-- The number of a call is given out once. -/
theorem calls_lt_after (s : Session) (call : Call) (later : List Move) :
    s.calls < (s.after (.event (.call call) :: later)).session.calls := by
  induction later using List.reverseRecOn with
  | nil =>
    have hbegin : (s.after [.event (.call call)]).session.calls = s.calls + 1 :=
      Act.calls_begin { session := { s with calls := s.calls + 1 } } call
    rw [hbegin]
    exact Nat.lt_succ_self _
  | append_singleton later m ih =>
    rw [← List.cons_append, after_concat]
    exact Nat.lt_of_lt_of_le ih (steps_move _ m).calls_le

/-- What the call that begins now waits for after a run. -/
inductive Awaits (s : Session) (call : Call) : List Move → Waiting → Prop
  | begins {w : Waiting} {timeout : Option Nat}
      (hw : w ∈ (s.after [.event (.call call)]).session.waiting) (hid : w.id = s.calls)
      (hfirst : call.First s.timeouts timeout w.pause)
      (hdeadline : w.deadline = timeout.map (s.clock + ·)) : Awaits s call [] w
  | staysOn {later : List Move} {m : Move} {v w : Waiting} (h : Awaits s call later v)
      (hw : w ∈ (s.after (.event (.call call) :: (later ++ [m]))).session.waiting)
      (hbare : w.bare = v.bare) : Awaits s call (later ++ [m]) w
  | goesOn {later : List Move} {v w : Waiting} {timeout : Nat} (h : Awaits s call later v)
      (hw : w ∈
        (s.after (.event (.call call) :: (later ++ [.turn (.resume w.id)]))).session.waiting)
      (hid : w.id = s.calls) (hnext : v.pause.Next s.timeouts timeout w.pause)
      (hdeadline : w.deadline =
        some ((s.after (.event (.call call) :: later)).session.clock + timeout)) :
    Awaits s call (later ++ [.turn (.resume w.id)]) w

/-- A call that waits began to wait for its first thing, and then for the next, or for the same as
before. -/
theorem awaits {call : Call} {later : List Move} (hsound : s.Sound)
    (hw : w ∈ (s.after (.event (.call call) :: later)).session.waiting) (hid : w.id = s.calls) :
    s.Awaits call later w := by
  induction later using List.reverseRecOn generalizing w with
  | nil =>
    have hbegun : w ∈ (s.move (.event (.call call))).session.waiting := hw
    cases arises hbegun with
    | before hv hbare =>
      exact absurd ((Waiting.id_of_bare hbare).symm.trans hid) (hsound.not_yet hv)
    | begins hmove _ hfirst hdeadline =>
      cases hmove
      exact .begins hw hid hfirst hdeadline
    | goesOn hmove => cases hmove
  | append_singleton later m ih =>
    have hlast := hw
    rw [← List.cons_append, after_concat] at hlast
    have hfrom : Arises _ m w := arises hlast
    cases hfrom with
    | before hv hbare =>
      exact .staysOn (ih hv ((Waiting.id_of_bare hbare).symm.trans hid)) hw hbare
    | begins _ hnumber =>
      exact absurd (hid.symm.trans hnumber) (Nat.ne_of_lt (s.calls_lt_after call later))
    | goesOn hmove hv hsame hnext hdeadline =>
      subst hmove
      rw [timeouts_after] at hnext
      exact .goesOn (ih hv (hsame.trans hid)) hw hid hnext hdeadline

namespace Awaits

variable {call : Call} {later : List Move}

theorem mem (h : s.Awaits call later w) :
    w ∈ (s.after (.event (.call call) :: later)).session.waiting := by
  cases h with
  | begins hw => exact hw
  | staysOn _ hw => exact hw
  | goesOn _ hw => exact hw

theorem id_eq (h : s.Awaits call later w) : w.id = s.calls := by
  induction h with
  | begins _ hid => exact hid
  | staysOn _ _ hbare ih => exact (Waiting.id_of_bare hbare).trans ih
  | goesOn _ _ hid => exact hid

/-- A call that waits has waited for something since it began. -/
theorem exists_earlier (h : s.Awaits call later w) {between : List Move}
    (hbetween : between <+: later) : ∃ v, s.Awaits call between v := by
  induction h with
  | begins hw hid hfirst hdeadline =>
    rw [List.prefix_nil.mp hbetween]
    exact ⟨_, .begins hw hid hfirst hdeadline⟩
  | staysOn h hw hbare ih =>
    rcases List.prefix_concat_iff.mp hbetween with rfl | hbefore
    · exact ⟨_, .staysOn h hw hbare⟩
    · exact ih hbefore
  | goesOn h hw hid hnext hdeadline ih =>
    rcases List.prefix_concat_iff.mp hbetween with rfl | hbefore
    · exact ⟨_, .goesOn h hw hid hnext hdeadline⟩
    · exact ih hbefore

end Awaits

end LocalPlay.Session
