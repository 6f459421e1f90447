import LocalPlay.Proofs.Timing.Countdown

/-!
# Actions that have begun

An action that has begun is on its own. It has its first turn before time passes, and gets one turn
further with every turn it has, until it has had all of them, whatever is done to the countdown
meanwhile: `count_action_append`. And an action whose refresh no call has followed can always begin
still, once those who are ready have had their turns and time has passed: `Open.exists_ends`.
-/

namespace LocalPlay.Timing.Countdown

variable {duration : Nat} {moves : List Move} {m : Move} {i rest time : Nat}

/-- How far the action of the refresh at place `i` has come. -/
inductive Stage (moves : List Move) (c : Course) (i : Nat) : Prop
  | ahead (hbegun : ∀ time, (.timer i, time) ∉ c.log) (htaken : count (.action i) c.log = 0)
      (hacting : c.run.acting.filter (·.refresh = i) = [])
  | acting {time : Nat} {a : Action} (hbegun : (.timer i, time) ∈ c.log)
      (hmove : moves[i]? = some (.refresh a.rest)) (htaken : count (.action i) c.log = a.taken)
      (hle : a.taken ≤ a.rest) (hacting : c.run.acting.filter (·.refresh = i) = [a])
      (hfirst : a.taken = 0 ∧ c.run.clock = time ∨ (.action i, time) ∈ c.log)
  | done {time rest : Nat} (hbegun : (.timer i, time) ∈ c.log)
      (hmove : moves[i]? = some (.refresh rest)) (htaken : count (.action i) c.log = rest + 1)
      (hacting : c.run.acting.filter (·.refresh = i) = []) (hfirst : (.action i, time) ∈ c.log)

theorem refresh_of_mem_turn {a b : Action} (hb : b ∈ a.turn) : b.refresh = a.refresh := by
  rw [Action.turn] at hb
  split at hb
  · rw [List.mem_singleton.mp hb]
  · cases hb

/-- What is left of the other actions when one has a turn. -/
theorem filter_turn_of_ne {j : Nat} (hj : j ≠ i) (acting : List Action) :
    (acting.flatMap fun a => if a.refresh = i then a.turn else [a]).filter (·.refresh = j) =
      acting.filter (·.refresh = j) := by
  induction acting with
  | nil => rfl
  | cons a acting ih =>
    rw [List.flatMap_cons, List.filter_append, ih]
    by_cases ha : a.refresh = i
    · have hturn : a.turn.filter (·.refresh = j) = [] := by
        rw [List.filter_eq_nil_iff]
        intro b hb
        simpa [refresh_of_mem_turn hb, ha] using hj.symm
      rw [if_pos ha, hturn, List.filter_cons_of_neg (by simpa [ha] using hj.symm), List.nil_append]
    · rw [if_neg ha, ← List.filter_append, List.singleton_append]

theorem filter_turn (acting : List Action) :
    (acting.flatMap fun a => if a.refresh = i then a.turn else [a]).filter (·.refresh = i) =
      (acting.filter (·.refresh = i)).flatMap Action.turn := by
  induction acting with
  | nil => rfl
  | cons a acting ih =>
    rw [List.flatMap_cons, List.filter_append, ih]
    by_cases ha : a.refresh = i
    · have hturn : a.turn.filter (·.refresh = i) = a.turn := by
        rw [List.filter_eq_self]
        intro b hb
        simpa [refresh_of_mem_turn hb] using ha
      rw [if_pos ha, hturn, List.filter_cons_of_pos (by simpa using ha), List.flatMap_cons]
    · rw [if_neg ha, List.filter_cons_of_neg (by simpa using ha),
        List.filter_cons_of_neg (by simpa using ha), List.filter_nil, List.nil_append]

namespace Stage

variable {c c' : Course}

/-- Nobody does anything that has to do with this action. -/
theorem keep (h : Stage moves c i) (hlog : ∃ told, c'.log = c.log ++ told ∧
      ∀ entry ∈ told, entry.1 ≠ .timer i ∧ entry.1 ≠ .action i)
    (hacting : c'.run.acting.filter (·.refresh = i) = c.run.acting.filter (·.refresh = i))
    (hclock : c'.run.clock = c.run.clock ∨ ∀ a ∈ c.run.acting, a.taken ≠ 0) :
    Stage (moves ++ [m]) c' i := by
  obtain ⟨told, hlog, htold⟩ := hlog
  have htimer (time : Nat) : (.timer i, time) ∈ c'.log ↔ (.timer i, time) ∈ c.log := by
    rw [hlog, List.mem_append]
    exact or_iff_left fun hnew => (htold _ hnew).1 rfl
  have hcount : count (.action i) c'.log = count (.action i) c.log := by
    have hnone : count (.action i) told = 0 :=
      count_eq_zero_iff.mpr fun time hnew => (htold _ hnew).2 rfl
    rw [hlog, count_append, hnone, Nat.add_zero]
  have hkept {time : Nat} (hmem : (.action i, time) ∈ c.log) : (.action i, time) ∈ c'.log := by
    rw [hlog]
    exact List.mem_append_left _ hmem
  cases h with
  | ahead hbegun htaken hnone =>
    exact .ahead (fun time => (htimer time).not.mpr (hbegun time)) (hcount.trans htaken)
      (hacting.trans hnone)
  | acting hbegun hmove htaken hle hone hfirst =>
    refine .acting ((htimer _).mpr hbegun) (getElem?_append_of_some hmove _) (hcount.trans htaken)
      hle (hacting.trans hone) ?_
    rcases hfirst with ⟨hzero, htime⟩ | hfirst
    · rcases hclock with hclock | hnone
      · exact .inl ⟨hzero, hclock.trans htime⟩
      · exact absurd hzero (hnone _ (List.mem_filter.mp (hone ▸ List.mem_singleton_self _)).1)
    · exact .inr (hkept hfirst)
  | done hbegun hmove htaken hnone hfirst =>
    exact .done ((htimer _).mpr hbegun) (getElem?_append_of_some hmove _) (hcount.trans htaken)
      (hacting.trans hnone) (hkept hfirst)

/-- The action begins. -/
theorem begin (h : Stage moves c i) (hsees : c.run.Sees i)
    (hfirst : ∀ time, (.timer i, time) ∉ c.log)
    (hlatest : moves[i]? = some (.refresh c.run.latest.rest) ∧ c.run.latest.taken = 0) :
    Stage (moves ++ [m]) (c.next (.turn (.timer i))) i := by
  rw [Course.next, Run.next, Run.move_of_sees hsees]
  cases h with
  | ahead hbegun htaken hnone =>
    have hbegun : (.timer i, c.run.clock) ∈ c.log ++ [(.timer i, c.run.clock)] :=
      List.mem_append_right _ (List.mem_singleton_self _)
    refine .acting (a := c.run.latest) hbegun (getElem?_append_of_some hlatest.1 _) ?_ ?_ ?_
      (.inl ⟨hlatest.2, rfl⟩)
    · rw [count_append, htaken, count_singleton, hlatest.2]
      rfl
    · rw [hlatest.2]
      exact Nat.zero_le _
    · rw [List.filter_append, hnone]
      simp [hsees.1]
  | acting hbegun => exact absurd hbegun (hfirst _)
  | done hbegun => exact absurd hbegun (hfirst _)

/-- The action has a turn. -/
theorem act (h : Stage moves c i) : Stage (moves ++ [m]) (c.next (.turn (.action i))) i := by
  rw [Course.next, Run.next, Run.move, Run.act]
  have hfilter := filter_turn (i := i) c.run.acting
  cases h with
  | ahead hbegun htaken hnone =>
    rw [hnone] at hfilter ⊢
    exact .ahead (by simpa using hbegun) (by simpa using htaken) hfilter
  | @acting time a hbegun hmove htaken hle hone hfirst =>
    rw [hone] at hfilter ⊢
    have hnow : (.action i, time) ∈ c.log ++ [(.action i, c.run.clock)] := by
      rw [List.mem_append, List.mem_singleton]
      rcases hfirst with ⟨-, rfl⟩ | hfirst
      · exact .inr rfl
      · exact .inl hfirst
    have hcount : count (.action i) (c.log ++ [(.action i, c.run.clock)]) = a.taken + 1 := by
      rw [count_append, htaken, count_singleton, if_pos rfl]
    by_cases hmore : a.taken < a.rest
    · refine .acting (a := { a with taken := a.taken + 1 }) (List.mem_append_left _ hbegun)
        (getElem?_append_of_some hmove _) hcount hmore (hfilter.trans ?_) (.inr hnow)
      simp [Action.turn, hmore]
    · refine .done (List.mem_append_left _ hbegun) (getElem?_append_of_some hmove _) ?_
        (hfilter.trans ?_) hnow
      · rw [Nat.le_antisymm (Nat.le_of_not_lt hmore) hle]
        exact hcount
      · simp [Action.turn, hmore]
  | done hbegun hmove htaken hnone hfirst =>
    rw [hnone] at hfilter ⊢
    exact .done (by simpa using hbegun) (getElem?_append_of_some hmove _) (by simpa using htaken)
      hfilter (by simpa using hfirst)

/-- An action that has begun takes its turns one by one. -/
theorem taken (h : Stage moves c i) (hbegun : (.timer i, time) ∈ c.log)
    (hmove : moves[i]? = some (.refresh rest)) : count (.action i) c.log ≤ rest + 1 ∧
      count (.action i) c.log + (c.run.acting.filter (·.refresh = i)).length =
        min (rest + 1) (count (.action i) c.log + 1) := by
  cases h with
  | ahead hnot => exact absurd hbegun (hnot time)
  | acting _ hmove' htaken hle hone =>
    obtain rfl := Move.refresh.inj (Option.some.inj (hmove.symm.trans hmove'))
    rw [htaken, hone, List.length_singleton]
    omega
  | done _ hmove' htaken hnone =>
    obtain rfl := Move.refresh.inj (Option.some.inj (hmove.symm.trans hmove'))
    rw [htaken, hnone, List.length_nil]
    omega

end Stage

theorem stage (duration : Nat) (moves : List Move) (i : Nat) :
    Stage moves (course duration moves) i := by
  induction moves using List.reverseRecOn with
  | nil => exact .ahead (fun time => List.not_mem_nil) rfl rfl
  | append_singleton moves m ih =>
    rw [course_concat]
    cases m with
    | refresh rest => exact ih.keep ⟨[], rfl, by simp⟩ rfl (.inl rfl)
    | disable => exact ih.keep ⟨[], rfl, by simp⟩ rfl (.inl rfl)
    | pass millis =>
      refine ih.keep ⟨[], rfl, by simp⟩ rfl ?_
      cases hbusy : (course duration moves).run.isBusy with
      | true => exact .inl (if_pos hbusy)
      | false =>
        refine .inr fun a ha hzero => ?_
        rw [Run.isBusy, Bool.or_eq_false_iff, List.any_eq_false] at hbusy
        exact hbusy.2 a ha (decide_eq_true hzero)
    | turn task =>
      cases task with
      | timer j =>
        by_cases hsees : (course duration moves).run.Sees j
        · obtain ⟨time, hdeadline, -, -, hfirst⟩ := (follows duration moves).sees hsees
          by_cases hij : i = j
          · subst hij
            have hlatest := (follows duration moves).latest (by rw [hdeadline]; rfl)
            rw [← hsees.1] at hlatest
            exact ih.begin hsees hfirst hlatest
          · rw [Course.next, Run.next, Run.move_of_sees hsees]
            refine ih.keep ⟨_, rfl, by simpa using Ne.symm hij⟩ ?_ (.inl rfl)
            rw [List.filter_append, List.filter_cons_of_neg, List.filter_nil, List.append_nil]
            simpa [← hsees.1] using Ne.symm hij
        · obtain ⟨watched, hmove⟩ := Run.move_of_not_sees hsees
          rw [Course.next, Run.next, hmove]
          exact ih.keep ⟨[], rfl, by simp⟩ rfl (.inl rfl)
      | action j =>
        by_cases hij : i = j
        · subst hij
          exact ih.act
        · refine ih.keep ⟨_, rfl, fun entry hentry => ?_⟩ (filter_turn_of_ne hij _) (.inl rfl)
          obtain ⟨a, -, rfl⟩ := List.mem_map.mp hentry
          exact ⟨by simp, by simpa using Ne.symm hij⟩

/-! ### What comes of it -/

/-- Once the clock has got beyond the end of a refresh, and no call came before, its timer has had
a turn at the end. -/
theorem Refreshed.ends (h : Refreshed duration moves i time)
    (hcalm : Undisturbed duration moves i (time + 1)) (hpast : time < clock duration moves) :
    Ends duration moves i time := by
  have hends {early : List Move} (hopen : Open duration early i time)
      (hpast : time < clock duration early) : Ends duration early i time := by
    rcases (follows duration early).ends_or_pending hopen with hends | ⟨hdeadline, -⟩
    · exact hends
    · exact absurd ((follows duration early).within time hdeadline) (Nat.not_le_of_lt hpast)
  obtain ⟨early, rest, later, rfl, rfl, rfl⟩ := h
  cases hcall : later.find? (·.interrupts) with
  | none => exact hends ⟨early, rest, later, rfl, rfl, rfl, by simpa using hcall⟩ hpast
  | some m =>
    -- Up to the first call nothing has followed, and the clock has got beyond the end already.
    obtain ⟨hm, between, after, rfl, hbetween⟩ := List.find?_eq_some_iff_append.mp hcall
    have hlate := hcalm (early ++ .refresh rest :: between) m after (by simp) (by simp) hm
    have hbefore : Ends duration (early ++ .refresh rest :: between) early.length
        (clock duration early + duration) :=
      hends ⟨early, rest, between, rfl, rfl, rfl, by simpa using hbetween⟩ hlate
    simpa using hbefore.append (m :: after)

theorem mem_log_append {entry : Task × Nat} (hentry : entry ∈ (course duration moves).log)
    (more : List Move) : entry ∈ (course duration (moves ++ more)).log := by
  induction more using List.reverseRecOn with
  | nil => rwa [List.append_nil]
  | append_singleton more m ih =>
    rw [← List.append_assoc, course_concat]
    exact List.mem_append_left _ ih

theorem count_action_concat (duration : Nat) (moves : List Move) (m : Move) (i : Nat) :
    count (.action i) (course duration (moves ++ [m])).log =
      count (.action i) (course duration moves).log + if m = .turn (.action i) then
        ((course duration moves).run.acting.filter (·.refresh = i)).length else 0 := by
  rw [course_concat, Course.next, Run.next, count_append]
  congr 1
  cases m with
  | refresh rest => rfl
  | disable => rfl
  | pass millis => rfl
  | turn task =>
    cases task with
    | timer j =>
      by_cases hsees : (course duration moves).run.Sees j
      · rw [Run.move_of_sees hsees]
        rfl
      · obtain ⟨watched, hmove⟩ := Run.move_of_not_sees hsees
        rw [hmove]
        rfl
    | action j =>
      rw [Run.move, Run.act]
      split
      · next hturn =>
        obtain rfl := Task.action.inj (Move.turn.inj hturn)
        rw [count, List.countP_map]
        exact List.countP_eq_length.mpr fun a _ => decide_eq_true rfl
      · next hturn =>
        rw [count_eq_zero_iff]
        intro time hmem
        obtain ⟨a, -, hnew⟩ := List.mem_map.mp hmem
        exact hturn (congrArg Move.turn (Prod.mk.inj hnew).1)

/-- An action that has begun gets one turn further whenever it has a turn, until it has had all of
them, whatever else is done. -/
theorem count_action_append (hbegun : (.timer i, time) ∈ (course duration moves).log)
    (hmove : moves[i]? = some (.refresh rest)) (more : List Move) :
    count (.action i) (course duration (moves ++ more)).log =
      min (rest + 1) (count (.action i) (course duration moves).log +
        more.count (.turn (.action i))) := by
  induction more using List.reverseRecOn with
  | nil =>
    have hle := ((stage duration moves i).taken hbegun hmove).1
    rw [List.append_nil, List.count_nil]
    exact (Nat.min_eq_right hle).symm
  | append_singleton more m ih =>
    rw [← List.append_assoc, count_action_concat, List.count_append, List.count_singleton]
    split
    · next hturn =>
      have htaken := ((stage duration (moves ++ more) i).taken
        (mem_log_append hbegun more) (getElem?_append_of_some hmove more)).2
      rw [htaken, ih, hturn, beq_self_eq_true, if_pos rfl]
      omega
    · next hturn =>
      rw [if_neg (by simpa using hturn), Nat.add_zero, Nat.add_zero]
      exact ih

/-- Time does not pass between the end of a countdown and the first turn of its action. -/
theorem action_mem_log (hbegun : (.timer i, time) ∈ (course duration moves).log) :
    clock duration moves = time ∨ (.action i, time) ∈ (course duration moves).log := by
  have hsame {other : Nat} (hother : (.timer i, other) ∈ (course duration moves).log) :
      other = time :=
    (((follows duration moves).ended i other).mp hother).refreshed.time_eq
      (((follows duration moves).ended i time).mp hbegun).refreshed
  cases stage duration moves i with
  | ahead hnot => exact absurd hbegun (hnot time)
  | acting hbegun' _ _ _ _ hfirst =>
    obtain rfl := hsame hbegun'
    exact hfirst.imp_left (·.2)
  | done hbegun' _ _ _ hfirst =>
    obtain rfl := hsame hbegun'
    exact .inr hfirst

theorem timer_mem_log (hacted : (.action i, time) ∈ (course duration moves).log) :
    ∃ start, (.timer i, start) ∈ (course duration moves).log := by
  cases stage duration moves i with
  | ahead _ htaken => exact absurd hacted (count_eq_zero_iff.mp htaken time)
  | acting hbegun => exact ⟨_, hbegun⟩
  | done hbegun => exact ⟨_, hbegun⟩

/-! ### Nothing is stuck -/

theorem open_append_iff {more : List Move} (hmore : ∀ m ∈ more, m.interrupts = false) :
    Open duration (moves ++ more) i time ↔ Open duration moves i time := by
  induction more using List.reverseRecOn with
  | nil => rw [List.append_nil]
  | append_singleton more m ih =>
    have hlast : m.interrupts = false := hmore m (by simp)
    rw [← List.append_assoc, open_concat_iff hlast]
    exact ih fun m' hm' => hmore m' (List.mem_append_left _ hm')

/-- Turns of actions do nothing else, and an action that has had one is no longer waited for. -/
theorem course_actions (duration : Nat) (moves : List Move) (places : List Nat) :
    ∃ count acting log, course duration (moves ++ places.map fun i => .turn (.action i)) =
        ⟨{ (course duration moves).run with moves := count, acting }, log⟩ ∧
      ∀ a ∈ acting, a.taken = 0 → a ∈ (course duration moves).run.acting ∧ a.refresh ∉ places := by
  induction places using List.reverseRecOn with
  | nil =>
    refine ⟨(course duration moves).run.moves, (course duration moves).run.acting,
      (course duration moves).log, ?_, fun a ha _ => ⟨ha, List.not_mem_nil⟩⟩
    rw [List.map_nil, List.append_nil]
  | append_singleton places i ih =>
    obtain ⟨count, acting, log, hcourse, hacting⟩ := ih
    refine ⟨count + 1, acting.flatMap fun a => if a.refresh = i then a.turn else [a],
      log ++ (acting.filter (·.refresh = i)).map fun _ => (.action i, clock duration moves), ?_,
      fun a ha hzero => ?_⟩
    · rw [List.map_append, List.map_singleton, ← List.append_assoc, course_concat, hcourse]
      rfl
    · obtain ⟨b, hb, hleft⟩ := List.mem_flatMap.mp ha
      split at hleft
      · rw [Action.turn] at hleft
        split at hleft
        · rw [List.mem_singleton.mp hleft] at hzero
          exact absurd hzero (Nat.succ_ne_zero _)
        · cases hleft
      · next hother =>
        obtain rfl := List.mem_singleton.mp hleft
        obtain ⟨hold, hnot⟩ := hacting a hb hzero
        exact ⟨hold, by simp [hnot, hother]⟩

theorem Run.nextTime_eq {r : Run} (hdeadline : r.countdown.deadline = some time)
    (hwatched : r.watched = true) (hacting : ∀ a ∈ r.acting, a.taken ≠ 0)
    (hclock : r.clock ≤ time) : r.nextTime (time - r.clock) = time := by
  have hnone : r.acting.any (·.taken = 0) = false := by simpa [List.any_eq_false] using hacting
  rw [nextTime, isBusy, hnone, hwatched, hdeadline]
  split
  · next hbusy =>
    have hover : time ≤ r.clock := by simpa [Countdown.isOver, hdeadline] using hbusy
    exact Nat.le_antisymm hclock hover
  · show min (r.clock + (time - r.clock)) time = time
    omega

/-- The first turn of a timer ends what is over, and else is all it waits for. -/
theorem Open.ends_or_watched (h : Open duration moves i time) :
    Ends duration (moves ++ [.turn (.timer i)]) i time ∨
      (course duration (moves ++ [.turn (.timer i)])).run.watched = true := by
  rcases (follows duration moves).ends_or_pending h with hends | ⟨hdeadline, hlatest⟩
  · exact .inl (hends.append _)
  · cases hover :
        (course duration moves).run.countdown.isOver (course duration moves).run.clock with
    | true =>
      obtain ⟨other, hdeadline', hclock, -⟩ := (follows duration moves).sees ⟨hlatest.symm, hover⟩
      obtain rfl := Option.some.inj (hdeadline.symm.trans hdeadline')
      exact .inl (ends_concat_iff.mpr (.inr ⟨rfl, h, hclock⟩))
    | false =>
      rw [course_concat, Course.next, Run.next, Run.move, if_pos hlatest.symm,
        Run.look_of_not_isOver hover]
      exact .inr rfl

theorem Open.exists_ends_of_watched (h : Open duration moves i time)
    (hwatched : (course duration moves).run.watched = true) :
    ∃ more, (∀ m ∈ more, m.interrupts = false) ∧ Ends duration (moves ++ more) i time := by
  rcases (follows duration moves).ends_or_pending h with hends | ⟨hdeadline, -⟩
  · exact ⟨[], by simp, by rwa [List.append_nil]⟩
  obtain ⟨count, acting, log, hcourse, hacting⟩ :=
    course_actions duration moves ((course duration moves).run.acting.map (·.refresh))
  have hnone : ∀ a ∈ acting, a.taken ≠ 0 := by
    intro a ha hzero
    obtain ⟨hold, hnot⟩ := hacting a ha hzero
    exact hnot (List.mem_map_of_mem hold)
  generalize (course duration moves).run.acting.map (·.refresh) = places at hcourse
  have hopen : Open duration (moves ++ places.map (fun i => .turn (.action i)) ++
      [.pass (time - clock duration moves)]) i time := by
    rw [open_concat_iff rfl]
    refine (open_append_iff ?_).mpr h
    simp [Move.interrupts]
  have hclock : clock duration (moves ++ places.map (fun i => .turn (.action i)) ++
      [.pass (time - clock duration moves)]) = time := by
    rw [clock, course_concat, hcourse]
    exact Run.nextTime_eq hdeadline hwatched hnone ((follows duration moves).within time hdeadline)
  refine ⟨places.map (fun i => .turn (.action i)) ++ [.pass (time - clock duration moves)] ++
    [.turn (.timer i)], by simp [Move.interrupts, or_imp, forall_and], ?_⟩
  rw [← List.append_assoc, ← List.append_assoc]
  exact ends_concat_iff.mpr (.inr ⟨rfl, hopen, hclock⟩)

/-- What is open can still end: those who are ready have their turns, and time passes. -/
theorem Open.exists_ends (h : Open duration moves i time) :
    ∃ more, (∀ m ∈ more, m.interrupts = false) ∧ Ends duration (moves ++ more) i time := by
  rcases h.ends_or_watched with hends | hwatched
  · exact ⟨_, by simp [Move.interrupts], hends⟩
  · have hlooked : Open duration (moves ++ [.turn (.timer i)]) i time := (open_concat_iff rfl).mpr h
    obtain ⟨more, hmore, hends⟩ := hlooked.exists_ends_of_watched hwatched
    refine ⟨.turn (.timer i) :: more, ?_, by rwa [List.append_cons]⟩
    simpa [Move.interrupts] using hmore

end LocalPlay.Timing.Countdown
