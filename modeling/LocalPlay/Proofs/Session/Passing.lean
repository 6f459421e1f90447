import LocalPlay.Proofs.Session.Settling
import LocalPlay.Proofs.Timing.Schedule

/-!
# Time passes a session by

While time passes nothing happens from outside, and no latch is raised. A call that goes on goes on
because its time is over, and ends. So the deadlines that are left only get fewer, one at least at
every stop of the clock, and the session allows for as many stops as it has deadlines. The clock
gets to its target, and on its way it is `Punctual`: it is never set past the deadline of a call
that waits. Steps and waits are such runs, and settle the session: `Settles`.
-/

namespace LocalPlay.Session

open Net Wire Overlay Timing

/-- The clock is never set past the deadline of a call that waits. -/
def Punctual (s : Session) (moves : List Move) : Prop :=
  ∀ before time later, moves = before ++ .reach time :: later →
    ∀ w ∈ (s.after before).session.waiting, ∀ deadline, w.deadline = some deadline →
      time ≤ deadline

/-- The moves come to `a` without being late for any call, and nothing is left to do then. -/
structure Settles (s : Session) (moves : List Move) (a : Act) : Prop where
  punctual : s.Punctual moves
  after : s.after moves = a
  ready : a.session.ready = []

/-- When the time of a call, an applicant or the idle countdown is over. -/
def deadlines (s : Session) : List Nat :=
  s.waiting.filterMap (·.deadline) ++
    (s.hosted.toList.flatMap (·.applicants)).map (·.deadline) ++ s.idle.deadline.toList

/-- No call waits for a latch that is raised. -/
def InLull (s : Session) : Prop :=
  ∀ w ∈ s.waiting, ∀ signal ∈ w.pause.awaited, s.latches.isRaised signal = false

/-- The session is left in its lull, and nobody has got more time. -/
structure Idles (s t : Session) : Prop where
  clock : t.clock = s.clock
  lull : t.InLull
  deadlines : t.deadlines.Sublist s.deadlines

variable {s t : Session}

/-! ### Punctual runs -/

theorem punctual_append {moves more : List Move} :
    s.Punctual (moves ++ more) ↔ s.Punctual moves ∧ (s.after moves).session.Punctual more := by
  constructor
  · intro h
    refine ⟨fun before time later hmoves => ?_, fun before time later hmore => ?_⟩
    · exact h before time (later ++ more) (by simp [hmoves])
    · have hlate := h (moves ++ before) time later (by simp [hmore])
      rwa [after_append] at hlate
  · rintro ⟨hmoves, hmore⟩ before time later hsplit
    rcases split_append hsplit with ⟨rest, hearly, -⟩ | ⟨between, rfl, hlate⟩
    · exact hmoves before time rest hearly
    · rw [after_append]
      exact hmore between time later hlate

theorem punctual_cons {m : Move} {moves : List Move} :
    s.Punctual (m :: moves) ↔ s.Punctual [m] ∧ (s.move m).session.Punctual moves :=
  @punctual_append s [m] moves

/-- Only when the clock is set something can be late. -/
theorem punctual_of_not_reach (s : Session) {moves : List Move}
    (hmoves : ∀ time, .reach time ∉ moves) : s.Punctual moves := by
  intro before time later hsplit
  refine absurd ?_ (hmoves time)
  rw [hsplit]
  exact List.mem_append_right _ List.mem_cons_self

theorem Settles.append {moves more : List Move} {a : Act} (hpunctual : s.Punctual moves)
    (h : (s.after moves).session.Settles more a) :
    s.Settles (moves ++ more) ((s.after moves).followedBy a) where
  punctual := punctual_append.mpr ⟨hpunctual, h.punctual⟩
  after := by rw [after_append, h.after]
  ready := h.ready

/-! ### Deadlines -/

theorem mem_deadlines_of_waiting {w : Waiting} (hw : w ∈ s.waiting) {deadline : Nat}
    (hdeadline : w.deadline = some deadline) : deadline ∈ s.deadlines :=
  List.mem_append_left _ (List.mem_append_left _ (List.mem_filterMap.mpr ⟨w, hw, hdeadline⟩))

theorem punctual_reach {time : Nat} (hearly : ∀ deadline ∈ s.deadlines, time ≤ deadline) :
    s.Punctual [.reach time] := by
  intro before other later hsplit w hw deadline hdeadline
  obtain ⟨rfl, hmove⟩ := split_singleton hsplit
  cases hmove
  exact hearly deadline (mem_deadlines_of_waiting hw hdeadline)

theorem deadlines_sublist
    (hwaiting : (t.waiting.filterMap (·.deadline)).Sublist (s.waiting.filterMap (·.deadline)))
    (hhosted : (t.hosted.toList.flatMap (·.applicants)).Sublist
      (s.hosted.toList.flatMap (·.applicants)))
    (hidle : t.idle.deadline.toList.Sublist s.idle.deadline.toList) :
    t.deadlines.Sublist s.deadlines :=
  (hwaiting.append (hhosted.map _)).append hidle

theorem length_deadlines_le_stops (s : Session) : s.deadlines.length ≤ machine.stops s := by
  have hcalls : (s.waiting.filterMap (·.deadline)).length ≤ s.waiting.length :=
    List.length_filterMap_le ..
  have hidle : s.idle.deadline.toList.length ≤ 1 := by
    cases s.idle.deadline with
    | none => exact Nat.zero_le _
    | some deadline => exact Nat.le_refl _
  have happlicants : (s.hosted.toList.flatMap (·.applicants)).length =
      (s.hosted.map (·.applicants.length)).getD 0 := by
    cases s.hosted with
    | none => rfl
    | some host => simp
  show _ ≤ s.waiting.length + (s.hosted.map (·.applicants.length)).getD 0 + 1
  rw [deadlines, List.length_append, List.length_append, List.length_map]
  omega

/-- Of the applicants' deadlines only the earliest is looked at. -/
theorem due?_eq (s : Session) : s.due? = (s.waiting.filterMap (·.deadline) ++
    ((s.hosted.toList.flatMap (·.applicants)).map (·.deadline)).min?.toList ++
      s.idle.deadline.toList).min? := by
  rw [due?]
  cases s.hosted with
  | none => rfl
  | some host => rw [Option.toList_some, List.flatMap_singleton]; rfl

/-- The next timer is the earliest deadline. -/
theorem earliest_of_due? {time : Nat} (hdue : s.due? = some time) :
    time ∈ s.deadlines ∧ ∀ deadline ∈ s.deadlines, time ≤ deadline := by
  rw [due?_eq, List.min?_eq_some_iff] at hdue
  rw [deadlines]
  generalize (s.hosted.toList.flatMap (·.applicants)).map (·.deadline) = applicants at hdue ⊢
  cases hfirst : applicants.min? with
  | none =>
    rw [hfirst] at hdue
    rwa [List.min?_eq_none_iff.mp hfirst]
  | some first =>
    obtain ⟨hmem, hleast⟩ := List.min?_eq_some_iff.mp hfirst
    rw [hfirst] at hdue
    simp only [Option.toList_some, List.mem_append, List.mem_singleton] at hdue ⊢
    obtain ⟨htime, hall⟩ := hdue
    refine ⟨?_, fun other hother => ?_⟩
    · rcases htime with (htime | rfl) | htime
      · exact .inl (.inl htime)
      · exact .inl (.inr hmem)
      · exact .inr htime
    · rcases hother with (hother | hother) | hother
      · exact hall other (.inl (.inl hother))
      · exact Nat.le_trans (hall first (.inl (.inr rfl))) (hleast other hother)
      · exact hall other (.inr hother)

theorem deadlines_of_due?_eq_none (hdue : s.due? = none) : s.deadlines = [] := by
  rw [due?_eq, List.min?_eq_none_iff, List.append_eq_nil_iff, List.append_eq_nil_iff,
    Option.toList_eq_nil_iff, List.min?_eq_none_iff] at hdue
  rw [deadlines, hdue.1.1, hdue.1.2, hdue.2]
  rfl

/-- Before the first deadline time makes nothing ready. -/
theorem ready_reach {time : Nat} (hearly : ∀ deadline ∈ s.deadlines, time < deadline) :
    (s.reach time).ready = s.ready ∧ (s.reach time).clock = time := by
  have hcalls : s.waiting.filter (·.deadline.any (· ≤ time)) = [] := by
    refine List.filter_eq_nil_iff.mpr fun w hw hover => ?_
    obtain ⟨deadline, hdeadline, hover⟩ := Option.any_eq_true _ _ |>.mp hover
    exact Nat.not_lt_of_le (of_decide_eq_true hover)
      (hearly deadline (mem_deadlines_of_waiting hw hdeadline))
  have happlicants : s.hosted.toList.flatMap (·.overdue time) = [] := by
    refine List.flatMap_eq_nil_iff.mpr fun host hhost => ?_
    rw [Host.overdue, List.map_eq_nil_iff]
    refine List.filter_eq_nil_iff.mpr fun applicant hmem hover => ?_
    refine Nat.not_lt_of_le (of_decide_eq_true hover) (hearly _ ?_)
    refine List.mem_append_left _ (List.mem_append_right _ (List.mem_map_of_mem ?_))
    exact List.mem_flatMap.mpr ⟨host, hhost, hmem⟩
  have hidle : s.idle.reach time = (false, s.idle) := by
    rw [Countdown.reach]
    refine if_neg fun hover => ?_
    obtain ⟨deadline, hdeadline, hover⟩ := Option.any_eq_true _ _ |>.mp hover
    refine Nat.not_lt_of_le (of_decide_eq_true hover) (hearly _ ?_)
    exact List.mem_append_right _ (Option.mem_toList.mpr hdeadline)
  rw [reach, hcalls, happlicants, hidle]
  exact ⟨rfl, rfl⟩

/-! ### Turns in a lull -/

theorem Idles.refl (hlull : s.InLull) : Idles s s :=
  ⟨rfl, hlull, .refl _⟩

theorem Idles.trans {u : Session} (h : Idles s t) (hmore : Idles t u) : Idles s u :=
  ⟨hmore.clock.trans h.clock, hmore.lull, hmore.deadlines.trans h.deadlines⟩

/-- What arrives for calls that wait for no latch does not end the lull. -/
theorem Idles.of_bare (hlull : s.InLull)
    (hwaiting : t.waiting.map (·.bare) = s.waiting.map (·.bare))
    (hframe : t.clock = s.clock ∧ t.latches = s.latches ∧ t.idle = s.idle)
    (hhosted : (t.hosted.toList.flatMap (·.applicants)).Sublist
      (s.hosted.toList.flatMap (·.applicants))) : Idles s t := by
  obtain ⟨hclock, hlatches, hidle⟩ := hframe
  refine ⟨hclock, fun w hw signal hsignal => ?_, deadlines_sublist ?_ hhosted ?_⟩
  · obtain ⟨old, hold, hbare⟩ := Waiting.exists_of_bare hwaiting hw
    rw [← w.awaited_bare, ← hbare, old.awaited_bare] at hsignal
    rw [hlatches]
    exact hlull old hold signal hsignal
  · have hdeadline : (fun w : Waiting => w.deadline) = (fun w => w.deadline) ∘ Waiting.bare := rfl
    rw [hdeadline, ← List.filterMap_map, ← List.filterMap_map]
    exact hwaiting ▸ .refl _
  · rw [hidle]

namespace Act

variable {a b : Act}

theorem Rests.idles (h : Rests a b) (hlull : a.session.InLull) : Idles a.session b.session := by
  have hwaiting : b.session.waiting = a.session.waiting := congrArg Affairs.waiting h.affairs
  have hidle : b.session.idle = a.session.idle := congrArg Affairs.idle h.affairs
  refine ⟨congrArg Affairs.clock h.affairs, fun w hw signal hsignal => ?_,
    deadlines_sublist ?_ ?_ ?_⟩
  · rw [hwaiting] at hw
    have hdown := hlull w hw signal hsignal
    exact Bool.eq_false_iff.mpr fun hraised =>
      Bool.eq_false_iff.mp hdown (h.lowered signal hraised)
  · rw [hwaiting]
  · rcases h.hosted with hnone | ⟨hsame, -⟩
    · rw [hnone]
      exact List.nil_sublist _
    · rw [hsame]
  · rw [hidle]

theorem idles_endWait (hlull : a.session.InLull) (call : Nat) {latches : Latches Signal}
    (hlowered : ∀ signal, latches.isRaised signal = true →
      a.session.latches.isRaised signal = true) :
    Idles a.session (a.endWait call latches).session := by
  refine ⟨rfl, fun w hw signal hsignal => ?_, deadlines_sublist ?_ (.refl _) (.refl _)⟩
  · have hdown := hlull w (List.mem_filter.mp hw).1 signal hsignal
    exact Bool.eq_false_iff.mpr fun hraised =>
      Bool.eq_false_iff.mp hdown (hlowered signal hraised)
  · exact List.filter_sublist.filterMap _

/-- A call that no latch lets through does not wait for anything else. -/
theorem idles_resume (hlull : a.session.InLull) (call : Nat) :
    Idles a.session (a.resume call).session := by
  have hresumes := a.resumes call
  generalize a.resume call = b at hresumes ⊢
  cases hresumes with
  | absent => exact .refl hlull
  | waitsOn => exact .refl hlull
  | finishes _ hlowered hrests =>
    have hended := idles_endWait hlull call hlowered
    exact hended.trans (hrests.idles hended.lull)
  | pauses hfind hraised =>
    obtain ⟨signal, hsignal, hraised⟩ := hraised
    have hdown := hlull _ (List.mem_of_find?_eq_some hfind) signal hsignal
    exact absurd (hraised.symm.trans hdown) nofun

theorem idles_cleanup (hlull : a.session.InLull) : Idles a.session a.cleanup.session := by
  have hcleans := a.cleans
  generalize a.cleanup = b at hcleans ⊢
  cases hcleans with
  | nothing => exact .refl hlull
  | idle hrests =>
    have hidles := hrests.idles hlull
    exact hidles.trans (.of_bare hidles.lull rfl ⟨rfl, rfl, rfl⟩ (.refl _))
  | @call b id hrests =>
    have hidles := hrests.idles hlull
    refine hidles.trans (.of_bare hidles.lull ?_ ⟨rfl, rfl, rfl⟩ (.refl _))
    exact (List.map_map ..).trans (List.map_congr_left fun w _ => w.bare_released id)

theorem idles_perform (hlull : a.session.InLull) (activity : Activity) :
    Idles a.session (a.perform activity).session := by
  cases activity with
  | resume call => exact idles_resume hlull call
  | cleanup => exact idles_cleanup hlull
  | idleStop =>
    obtain ⟨receiver, ready, hstop⟩ := a.stopReceiver_eq .idleCountdown
    rw [perform, hstop]
    exact .of_bare hlull rfl ⟨rfl, rfl, rfl⟩ (.refl _)
  | host job =>
    rw [perform, atHost]
    split
    · rename_i host hhost
      obtain ⟨ready, hadopt⟩ := a.adopt_eq (host.perform a.session.clock a.session.link job)
      rw [hadopt]
      refine .of_bare hlull rfl ⟨rfl, rfl, rfl⟩ ?_
      rw [hhost, Option.toList_some, Option.toList_some, List.flatMap_singleton,
        List.flatMap_singleton]
      exact Service.applicants_perform host _ _ job
    · exact .refl hlull

end Act

theorem idles_settleWithin (turns : Nat) (hlull : s.InLull) :
    Idles s (machine.settleWithin turns s).1 := by
  induction turns generalizing s with
  | zero => exact .refl hlull
  | succ turns ih =>
    rw [Machine.settleWithin]
    cases hturn : machine.turn s with
    | none => exact .refl hlull
    | some next =>
      obtain ⟨t, told⟩ := next
      have hnext : s.turn = some (t, told) := hturn
      rw [Session.turn] at hnext
      split at hnext
      · cases hnext
      · rename_i activity ready hready
        obtain ⟨rfl, -⟩ := Prod.mk.inj (Option.some.inj hnext)
        have hidles := Act.idles_perform (a := { session := { s with ready } }) hlull activity
        exact .trans ⟨hidles.clock, hidles.lull, hidles.deadlines⟩ (ih hidles.lull)

/-! ### Settled sessions -/

/-- In a settled session everyone has time left, and no latch is raised that a call waits for. -/
theorem Sound.settled (h : s.Sound) (hready : s.ready = []) :
    (∀ w ∈ s.waiting, ¬ s.Stirs w ∧ w.pause.isLimited = true) ∧ s.InLull ∧
      ∀ deadline ∈ s.deadlines, s.clock < deadline := by
  have hdue {activity : Activity} (hdue : s.AtHand none activity) : False := by
    rcases hdue with hmem | hcurrent
    · rw [hready] at hmem
      cases hmem
    · cases hcurrent
  have hstill : ∀ w ∈ s.waiting, ¬ s.Stirs w := fun w hw hstirs =>
    hdue (h.alert.calls w hw hstirs)
  have hlimited : ∀ w ∈ s.waiting, w.pause.isLimited = true := by
    intro w hw
    cases hpause : w.pause with
    | cleanup ended =>
      cases ended with
      | true => exact absurd (.inr (.inl (by rw [hpause]; rfl))) (hstill w hw)
      | false => exact (hdue (h.alert.ending _ (h.alert.stops w hw hpause))).elim
    | _ => rfl
  refine ⟨fun w hw => ⟨hstill w hw, hlimited w hw⟩, fun w hw signal hsignal => ?_,
    fun deadline hmem => ?_⟩
  · exact Bool.eq_false_iff.mpr fun hraised => hstill w hw (.inr (.inr ⟨signal, hsignal, hraised⟩))
  · rcases List.mem_append.mp hmem with hmem | hidle
    · rcases List.mem_append.mp hmem with hcall | happlicant
      · obtain ⟨w, hw, hdeadline⟩ := List.mem_filterMap.mp hcall
        refine Nat.lt_of_not_le fun hover => hstill w hw (.inl ⟨hlimited w hw, ?_⟩)
        rw [hdeadline]
        exact decide_eq_true hover
      · obtain ⟨applicant, hwaits, rfl⟩ := List.mem_map.mp happlicant
        obtain ⟨host, hhost, hwaits⟩ := List.mem_flatMap.mp hwaits
        refine Nat.lt_of_not_le fun hover => ?_
        exact hdue (h.alert.applicants host (Option.mem_toList.mp hhost) applicant hwaits hover)
    · exact h.alert.idle deadline (Option.mem_toList.mp hidle)

/-! ### Stops of the clock -/

/-- At a later time the session is still in its lull. -/
theorem idles_reach (hlull : s.InLull) (time : Nat) :
    (s.reach time).clock = time ∧ (s.reach time).InLull ∧
      (s.reach time).deadlines.Sublist s.deadlines := by
  obtain ⟨ready, hreach, -⟩ := s.exists_reach_eq time
  rw [hreach]
  refine ⟨rfl, hlull, deadlines_sublist (.refl _) (.refl _) ?_⟩
  show (s.idle.reach time).2.deadline.toList.Sublist s.idle.deadline.toList
  rw [Countdown.reach]
  split
  · exact List.nil_sublist _
  · exact .refl _

/-- The turns after a move that is not late settle a session. -/
theorem Sound.settles_cons (h : s.Sound) {m : Move} (hpunctual : s.Punctual [m]) :
    ∃ activities : List Activity, s.Settles (m :: activities.map .turn)
      ((s.move m).followedBy
        ⟨(machine.settle (s.move m).session).1, (machine.settle (s.move m).session).2⟩) := by
  obtain ⟨activities, hturns⟩ := settle_eq_after (s.move m).session
  have hlater : (s.move m).session.Punctual (activities.map .turn) :=
    punctual_of_not_reach _ (by simp)
  refine ⟨activities, punctual_cons.mpr ⟨hpunctual, hlater⟩, ?_, ?_⟩
  · rw [after_cons, hturns]
  · exact (h.move m).ready_settle

/-- The clock stops at the next timer, and the session settles there: a deadline less is to come. -/
theorem Sound.stop (h : s.Sound) (hready : s.ready = []) {time : Nat} (hdue : s.due? = some time) :
    (∃ moves, s.Settles moves
      ⟨(machine.settle (s.reach time)).1, (machine.settle (s.reach time)).2⟩) ∧
      (machine.settle (s.reach time)).1.deadlines.length < s.deadlines.length := by
  obtain ⟨htime, hleast⟩ := earliest_of_due? hdue
  obtain ⟨-, hlull, -⟩ := h.settled hready
  obtain ⟨hclock, hlull, hfewer⟩ := idles_reach hlull time
  have hidles : Idles (s.reach time) (machine.settle (s.reach time)).1 :=
    idles_settleWithin _ hlull
  obtain ⟨activities, hsettles⟩ := h.settles_cons (punctual_reach hleast)
  refine ⟨⟨_, hsettles⟩, ?_⟩
  -- If none were less, the one that was due now would be left, but the session is settled.
  refine Nat.lt_of_not_le fun hmore => ?_
  have hsame := (hidles.deadlines.trans hfewer).eq_of_length_le hmore
  have hsound := h.after (.reach time :: activities.map .turn)
  rw [hsettles.after] at hsound
  have hlate := (hsound.settled hsettles.ready).2.2 time (hsame ▸ htime)
  have hnow : (machine.settle (s.reach time)).1.clock = time := hidles.clock.trans hclock
  exact Nat.lt_irrefl _ (hnow ▸ hlate)

/-- Before the first deadline the clock is set at once. -/
theorem reach_early (hready : s.ready = []) {target : Nat}
    (hlater : ∀ time, machine.due? s = some time → target < time) :
    (∃ moves, s.Settles moves ⟨machine.reach target s, []⟩) ∧
      (machine.reach target s).clock = target := by
  have hearly : ∀ deadline ∈ s.deadlines, target < deadline := by
    intro deadline hmem
    cases hdue : s.due? with
    | none =>
      rw [deadlines_of_due?_eq_none hdue] at hmem
      exact nomatch hmem
    | some time =>
      exact Nat.lt_of_lt_of_le (hlater time hdue) ((earliest_of_due? hdue).2 deadline hmem)
  obtain ⟨hsame, hclock⟩ := ready_reach hearly
  have hpunctual : s.Punctual [.reach target] :=
    punctual_reach fun deadline hmem => Nat.le_of_lt (hearly deadline hmem)
  exact ⟨⟨_, hpunctual, rfl, hsame.trans hready⟩, hclock⟩

/-- The clock gets to its target by a punctual run, and the session is settled there. -/
theorem Sound.advance (h : s.Sound) (hready : s.ready = []) (target : Nat) :
    (∃ moves, s.Settles moves ⟨(machine.advance target s).1, (machine.advance target s).2⟩) ∧
      (machine.advance target s).1.clock = target := by
  refine Machine.advanceWithin_of_stops (m := machine) (P := fun s => s.Sound ∧ s.ready = [])
    (R := fun s last => (∃ moves, s.Settles moves ⟨last.1, last.2⟩) ∧ last.1.clock = target)
    (·.deadlines.length) ?_ ?_ ?_ ⟨h, hready⟩ s.length_deadlines_le_stops
  · intro s hnone
    cases hdue : s.due? with
    | none => exact hdue
    | some time =>
      have hmem := (earliest_of_due? hdue).1
      rw [List.eq_nil_of_length_eq_zero hnone] at hmem
      exact nomatch hmem
  · rintro s ⟨-, hready⟩ hlater
    exact reach_early hready hlater
  · rintro s time ⟨h, hready⟩ hdue -
    obtain ⟨⟨moves, hsettles⟩, hless⟩ := h.stop hready hdue
    have hsound := h.after moves
    rw [hsettles.after] at hsound
    refine ⟨⟨hsound, hsettles.ready⟩, hless, ?_⟩
    rintro last ⟨⟨more, hrest⟩, hlast⟩
    have hthen : (s.after moves).session.Settles more ⟨last.1, last.2⟩ := by
      rw [hsettles.after]
      exact hrest
    have hall := Settles.append hsettles.punctual hthen
    rw [hsettles.after] at hall
    exact ⟨⟨moves ++ more, hall⟩, hlast⟩

/-! ### Steps and waits -/

/-- Something happens, and the session settles. -/
theorem Sound.step (h : s.Sound) (event : Event) :
    ∃ activities : List Activity, s.Settles (.event event :: activities.map .turn)
      ⟨(s.step event).2.1, (s.step event).2.2⟩ := by
  have hpunctual : s.Punctual [.event event] := punctual_of_not_reach s (by simp)
  obtain ⟨activities, hsettles⟩ := h.settles_cons hpunctual
  refine ⟨activities, ?_⟩
  rw [Session.move, Act.followedBy] at hsettles
  rw [Session.step]
  exact hsettles

/-- Time passes, all of it. -/
theorem Sound.wait (h : s.Sound) (hready : s.ready = []) (millis : Nat) :
    (∃ moves, s.Settles moves ⟨(s.wait millis).1, (s.wait millis).2⟩) ∧
      (s.wait millis).1.clock = s.clock + millis :=
  h.advance hready _

end LocalPlay.Session
