import Mathlib.Data.List.Induction
import LocalPlay.Proofs.Splits
import LocalPlay.Timing.Countdown

/-!
# Countdowns over time

A countdown is refreshed and disabled, and time passes, in any order; each refresh has an action of
its own. That a countdown is over does nothing by itself: the timer of the refresh has to have a
turn to see it. Until then a call can still come, also when the clock shows the end already. So the
turns of timers, and of the actions that have begun, are moves as well, and come in any order. Time
passes only while nobody is ready for a turn, and not past the end of the countdown.

`Open` says from the moves which refresh no call has followed, and when its countdown is over;
`Ends` says that its timer had a turn just then. The countdown runs for what is open and has not
ended, and just the actions of those that ended have begun: `follows`.
-/

namespace LocalPlay.Timing.Countdown

/-- Who has turns: the timer of the refresh at a place among the moves, and the action of that
refresh once it has begun. -/
inductive Task where
  | timer (refresh : Nat)
  | action (refresh : Nat)
  deriving DecidableEq

inductive Move where
  /-- Its action takes so many turns after the first one. -/
  | refresh (rest : Nat)
  | disable
  | pass (millis : Nat)
  | turn (task : Task)
  deriving DecidableEq

/-- What is pending does not go on after this. -/
def Move.interrupts : Move → Bool
  | refresh _ | disable => true
  | pass _ | turn _ => false

structure Action where
  /-- The place of its refresh among the moves. -/
  refresh : Nat
  /-- The turns that it takes after its first one. -/
  rest : Nat
  taken : Nat := 0
  deriving DecidableEq

/-- What is left of an action after a turn. -/
def Action.turn (a : Action) : List Action :=
  if a.taken < a.rest then [{ a with taken := a.taken + 1 }] else []

/-- Which tasks have done something, and when: a timer has begun its action, an action has had a
turn. -/
abbrev Log := List (Task × Nat)

def count (task : Task) (log : Log) : Nat :=
  log.countP (·.1 = task)

/-- A countdown that runs, with what has begun because of it. -/
structure Run where
  clock : Nat := 0
  countdown : Countdown
  moves : Nat := 0
  /-- The action of the last refresh. -/
  latest : Action := { refresh := 0, rest := 0 }
  /-- The timer of the last refresh has had a turn. -/
  watched : Bool := false
  acting : List Action := []
  deriving DecidableEq

namespace Run

/-- Somebody has a turn before time passes: a timer that has had none or sees the countdown over, or
an action that has had none. -/
def isBusy (r : Run) : Bool :=
  r.countdown.deadline.isSome && !r.watched || r.countdown.isOver r.clock ||
    r.acting.any (·.taken = 0)

/-- What the clock shows after some time: it does not run past the end of the countdown. -/
def nextTime (r : Run) (millis : Nat) : Nat :=
  if r.isBusy then r.clock
  else r.countdown.deadline.elim (r.clock + millis) (min (r.clock + millis))

/-- The timer of the last refresh looks at the countdown. -/
def look (r : Run) : Run × Log :=
  match r.countdown.reach r.clock with
  | (true, countdown) =>
    ({ r with countdown, acting := r.acting ++ [r.latest] }, [(.timer r.latest.refresh, r.clock)])
  | (false, countdown) => ({ r with countdown, watched := true }, [])

def act (i : Nat) (r : Run) : Run × Log :=
  ({ r with acting := r.acting.flatMap fun a => if a.refresh = i then a.turn else [a] },
    (r.acting.filter (·.refresh = i)).map fun _ => (.action i, r.clock))

def move (r : Run) : Move → Run × Log
  | .refresh rest =>
    ({ r with
        countdown := r.countdown.refresh r.clock
        latest := { refresh := r.moves, rest }
        watched := false }, [])
  | .disable => ({ r with countdown := r.countdown.disable }, [])
  | .pass millis => ({ r with clock := r.nextTime millis }, [])
  | .turn (.timer i) => if i = r.latest.refresh then r.look else (r, [])
  | .turn (.action i) => r.act i

def next (r : Run) (m : Move) : Run × Log :=
  ({ (r.move m).1 with moves := r.moves + 1 }, (r.move m).2)

end Run

/-- A countdown on its way, with what has been done. -/
structure Course where
  run : Run
  log : Log := []
  deriving DecidableEq

def Course.next (c : Course) (m : Move) : Course :=
  ⟨(c.run.next m).1, c.log ++ (c.run.next m).2⟩

/-- What moves make of a countdown that nobody has refreshed yet. -/
def course (duration : Nat) (moves : List Move) : Course :=
  moves.foldl Course.next { run := { countdown := { duration } } }

/-- What the clock shows. -/
def clock (duration : Nat) (moves : List Move) : Nat :=
  (course duration moves).run.clock

/-- The move at place `i` is a refresh, and its countdown is over at `time`. -/
def Refreshed (duration : Nat) (moves : List Move) (i time : Nat) : Prop :=
  ∃ early rest later, moves = early ++ .refresh rest :: later ∧ i = early.length ∧
    time = clock duration early + duration

/-- After the move at place `i` no call is made before the clock shows `limit`. -/
def Undisturbed (duration : Nat) (moves : List Move) (i limit : Nat) : Prop :=
  ∀ before m after, moves = before ++ m :: after → i < before.length → m.interrupts = true →
    limit ≤ clock duration before

/-- The move at place `i` is a refresh that no call has followed, and its countdown is over at
`time`. -/
def Open (duration : Nat) (moves : List Move) (i time : Nat) : Prop :=
  ∃ early rest later, moves = early ++ .refresh rest :: later ∧ i = early.length ∧
    time = clock duration early + duration ∧ ∀ m ∈ later, m.interrupts = false

/-- The timer of the refresh at place `i` has had a turn at `time`, when the countdown was over that
no call had followed. -/
def Ends (duration : Nat) (moves : List Move) (i time : Nat) : Prop :=
  ∃ before after, moves = before ++ .turn (.timer i) :: after ∧ Open duration before i time ∧
    clock duration before = time

variable {duration : Nat} {moves : List Move} {m : Move} {i rest time : Nat} {log told : Log}
  {task : Task}

/-! ### Calls and turns -/

theorem course_concat (duration : Nat) (moves : List Move) (m : Move) :
    course duration (moves ++ [m]) = (course duration moves).next m :=
  List.foldl_append ..

theorem open_refresh_iff : Open duration (moves ++ [.refresh rest]) i time ↔
    i = moves.length ∧ time = clock duration moves + duration := by
  constructor
  · rintro ⟨early, rest', later, hmoves, hi, htime, hcalm⟩
    rcases split_append hmoves with ⟨between, -, rfl⟩ | ⟨between, rfl, hlast⟩
    · simpa [Move.interrupts] using hcalm (.refresh rest)
    · obtain ⟨rfl, -⟩ := split_singleton hlast
      rw [List.append_nil] at hi htime
      exact ⟨hi, htime⟩
  · rintro ⟨hi, htime⟩
    exact ⟨moves, rest, [], rfl, hi, htime, by simp⟩

theorem not_open_disable : ¬ Open duration (moves ++ [.disable]) i time := by
  rintro ⟨early, rest, later, hmoves, -, -, hcalm⟩
  rcases split_append hmoves with ⟨between, -, rfl⟩ | ⟨between, -, hlast⟩
  · simpa [Move.interrupts] using hcalm .disable
  · obtain ⟨-, hdisable⟩ := split_singleton hlast
    cases hdisable

theorem open_concat_iff (hm : m.interrupts = false) :
    Open duration (moves ++ [m]) i time ↔ Open duration moves i time := by
  constructor
  · rintro ⟨early, rest, later, hmoves, hi, htime, hcalm⟩
    rcases split_append hmoves with ⟨between, hold, rfl⟩ | ⟨between, -, hlast⟩
    · exact ⟨early, rest, between, hold, hi, htime, fun m' hm' =>
        hcalm m' (List.mem_append_left _ hm')⟩
    · obtain ⟨-, rfl⟩ := split_singleton hlast
      cases hm
  · rintro ⟨early, rest, later, rfl, hi, htime, hcalm⟩
    refine ⟨early, rest, later ++ [m], by simp, hi, htime, fun m' hm' => ?_⟩
    rcases List.mem_append.mp hm' with hold | hnew
    · exact hcalm m' hold
    · rwa [List.mem_singleton.mp hnew]

theorem ends_concat_iff : Ends duration (moves ++ [m]) i time ↔ Ends duration moves i time ∨
    m = .turn (.timer i) ∧ Open duration moves i time ∧ clock duration moves = time := by
  constructor
  · rintro ⟨before, after, hmoves, hopen, hclock⟩
    rcases split_append hmoves with ⟨between, hold, -⟩ | ⟨between, rfl, hlast⟩
    · exact .inl ⟨before, between, hold, hopen, hclock⟩
    · obtain ⟨rfl, rfl⟩ := split_singleton hlast
      rw [List.append_nil] at hopen hclock
      exact .inr ⟨rfl, hopen, hclock⟩
  · rintro (⟨before, after, rfl, hopen, hclock⟩ | ⟨rfl, hopen, hclock⟩)
    · exact ⟨before, after ++ [m], by simp, hopen, hclock⟩
    · exact ⟨moves, [], rfl, hopen, hclock⟩

theorem Ends.append (h : Ends duration moves i time) (more : List Move) :
    Ends duration (moves ++ more) i time := by
  obtain ⟨before, after, rfl, hopen, hclock⟩ := h
  exact ⟨before, after ++ more, by simp, hopen, hclock⟩

theorem Ends.refreshed (h : Ends duration moves i time) : Refreshed duration moves i time := by
  obtain ⟨before, after, rfl, ⟨early, rest, later, rfl, hi, htime, -⟩, -⟩ := h
  exact ⟨early, rest, later ++ .turn (.timer i) :: after, by simp, hi, htime⟩

/-- The place of a refresh tells when its countdown is over. -/
theorem Refreshed.time_eq {other : Nat} (h : Refreshed duration moves i time)
    (h' : Refreshed duration moves i other) : time = other := by
  obtain ⟨early, rest, later, rfl, rfl, rfl⟩ := h
  obtain ⟨early', rest', later', hmoves, hlength, rfl⟩ := h'
  obtain ⟨rfl, -⟩ := List.append_inj hmoves hlength
  rfl

theorem Open.refreshed (h : Open duration moves i time) : Refreshed duration moves i time := by
  obtain ⟨early, rest, later, hmoves, hi, htime, -⟩ := h
  exact ⟨early, rest, later, hmoves, hi, htime⟩

/-! ### What has been done -/

theorem count_append (task : Task) (log told : Log) :
    count task (log ++ told) = count task log + count task told :=
  List.countP_append

theorem count_eq_zero_iff : count task log = 0 ↔ ∀ time, (task, time) ∉ log := by
  simp only [count, List.countP_eq_zero, decide_eq_true_eq, Prod.forall]
  grind

theorem count_singleton (task other : Task) (time : Nat) :
    count task [(other, time)] = if other = task then 1 else 0 := by
  simp [count, List.countP_singleton]

/-! ### The turn of a timer -/

namespace Run

variable {r : Run}

/-- The timer has a turn in time to see that the countdown is over. -/
def Sees (r : Run) (i : Nat) : Prop :=
  i = r.latest.refresh ∧ r.countdown.isOver r.clock = true

theorem move_of_sees (hsees : r.Sees i) : r.move (.turn (.timer i)) =
    ({ r with countdown := r.countdown.disable, acting := r.acting ++ [r.latest] },
      [(.timer i, r.clock)]) := by
  obtain ⟨rfl, hover⟩ := hsees
  rw [move, if_pos rfl, look, Countdown.reach, if_pos hover]

theorem look_of_not_isOver (hover : r.countdown.isOver r.clock = false) :
    r.look = ({ r with watched := true }, []) := by
  rw [look, Countdown.reach, hover]
  rfl

theorem move_of_not_sees (hsees : ¬ r.Sees i) :
    ∃ watched, r.move (.turn (.timer i)) = ({ r with watched }, []) := by
  rw [move]
  split
  · next hlatest =>
    have hover : r.countdown.isOver r.clock = false := by
      rw [← Bool.not_eq_true]
      exact fun hover => hsees ⟨hlatest, hover⟩
    exact ⟨true, look_of_not_isOver hover⟩
  · exact ⟨r.watched, rfl⟩

theorem isOver_iff : r.countdown.isOver r.clock = true ↔
    ∃ time, r.countdown.deadline = some time ∧ time ≤ r.clock := by
  simp [Countdown.isOver, Option.any_eq_true]

theorem nextTime_le (millis : Nat) (hdeadline : r.countdown.deadline = some time)
    (hclock : r.clock ≤ time) : r.nextTime millis ≤ time := by
  rw [nextTime]
  split
  · exact hclock
  · rw [hdeadline]
    exact Nat.min_le_right _ _

end Run

/-! ### The countdown and the moves -/

/-- The countdown runs for what is open and has not ended, and its clock does not get beyond the
end. -/
structure Follows (duration : Nat) (moves : List Move) (c : Course) : Prop where
  counted : c.run.moves = moves.length
  lasts : c.run.countdown.duration = duration
  pending : ∀ i time, c.run.countdown.deadline = some time ∧ c.run.latest.refresh = i ↔
    Open duration moves i time ∧ ¬ Ends duration moves i time
  within : ∀ time, c.run.countdown.deadline = some time → c.run.clock ≤ time
  latest : c.run.countdown.deadline.isSome = true →
    moves[c.run.latest.refresh]? = some (.refresh c.run.latest.rest) ∧ c.run.latest.taken = 0
  ended : ∀ i time, (.timer i, time) ∈ c.log ↔ Ends duration moves i time
  once : ∀ i, count (.timer i) c.log ≤ 1

theorem getElem?_append_of_some (hm : moves[i]? = some m) (more : List Move) :
    (moves ++ more)[i]? = some m :=
  (List.getElem?_append_left (List.getElem?_eq_some_iff.mp hm).1).trans hm

theorem Refreshed.lt_length (h : Refreshed duration moves i time) : i < moves.length := by
  obtain ⟨early, rest, later, rfl, rfl, -⟩ := h
  simp

/-- A call ends nothing. -/
theorem ends_call_iff (hm : m.interrupts = true) :
    Ends duration (moves ++ [m]) i time ↔ Ends duration moves i time := by
  rw [ends_concat_iff]
  refine or_iff_left ?_
  rintro ⟨rfl, -⟩
  cases hm

theorem log_call (c : Course) (hm : m.interrupts = true) : (c.next m).log = c.log := by
  cases m with
  | refresh rest => exact List.append_nil _
  | disable => exact List.append_nil _
  | pass millis => cases hm
  | turn task => cases hm

namespace Follows

theorem counted_next (h : Follows duration moves (course duration moves)) (m : Move) :
    ((course duration moves).next m).run.moves = (moves ++ [m]).length := by
  rw [List.length_append, List.length_singleton, ← h.counted]
  rfl

theorem refresh (h : Follows duration moves (course duration moves)) :
    Follows duration (moves ++ [.refresh rest]) ((course duration moves).next (.refresh rest)) where
  counted := h.counted_next _
  lasts := h.lasts
  pending i time := by
    have hdeadline : ((course duration moves).next (.refresh rest)).run.countdown.deadline =
        some (clock duration moves + duration) :=
      congrArg (fun lasts => some (clock duration moves + lasts)) h.lasts
    have hlatest : ((course duration moves).next (.refresh rest)).run.latest.refresh =
        moves.length := h.counted
    have hnew : i = moves.length → ¬ Ends duration moves i time := fun hi hends =>
      absurd hends.refreshed.lt_length (Nat.not_lt.mpr (Nat.le_of_eq hi.symm))
    rw [hdeadline, hlatest, Option.some_inj, open_refresh_iff, ends_call_iff rfl]
    constructor
    · rintro ⟨rfl, rfl⟩
      exact ⟨⟨rfl, rfl⟩, hnew rfl⟩
    · rintro ⟨⟨rfl, rfl⟩, -⟩
      exact ⟨rfl, rfl⟩
  within time hdeadline := by
    rw [← Option.some.inj hdeadline]
    exact Nat.le_add_right _ _
  latest _ := by
    refine ⟨?_, rfl⟩
    show (moves ++ [.refresh rest])[(course duration moves).run.moves]? = some (.refresh rest)
    rw [h.counted, List.getElem?_concat_length]
  ended i time := by
    rw [log_call _ rfl, ends_call_iff rfl]
    exact h.ended i time
  once i := by
    rw [log_call _ rfl]
    exact h.once i

theorem disable (h : Follows duration moves (course duration moves)) :
    Follows duration (moves ++ [.disable]) ((course duration moves).next .disable) where
  counted := h.counted_next _
  lasts := h.lasts
  pending i time := by
    refine iff_of_false (fun hsome => ?_) fun hopen => not_open_disable hopen.1
    cases hsome.1
  within time hdeadline := by cases hdeadline
  latest hsome := by cases hsome
  ended i time := by
    rw [log_call _ rfl, ends_call_iff rfl]
    exact h.ended i time
  once i := by
    rw [log_call _ rfl]
    exact h.once i

/-- Neither a call nor a timer's turn at the end. -/
theorem keep {c : Course} (h : Follows duration moves (course duration moves))
    (hm : m.interrupts = false)
    (hturn : ∀ i, m = .turn (.timer i) → ∀ time, Open duration moves i time →
      clock duration moves = time → Ends duration moves i time)
    (hcounted : c.run.moves = (course duration moves).run.moves + 1)
    (hcountdown : c.run.countdown = (course duration moves).run.countdown)
    (hlatest : c.run.latest = (course duration moves).run.latest)
    (hclock : ∀ time, c.run.countdown.deadline = some time → c.run.clock ≤ time)
    (hlog : ∃ told, c.log = (course duration moves).log ++ told ∧
      ∀ i time, (.timer i, time) ∉ told) :
    Follows duration (moves ++ [m]) c := by
  have hends (i time : Nat) :
      Ends duration (moves ++ [m]) i time ↔ Ends duration moves i time := by
    rw [ends_concat_iff]
    exact or_iff_left_of_imp fun hnew => hturn i hnew.1 time hnew.2.1 hnew.2.2
  obtain ⟨told, hlog, htold⟩ := hlog
  refine ⟨?_, ?_, fun i time => ?_, hclock, fun hsome => ?_, fun i time => ?_, fun i => ?_⟩
  · rw [hcounted, h.counted, List.length_append, List.length_singleton]
  · rw [hcountdown]
    exact h.lasts
  · rw [hcountdown, hlatest, open_concat_iff hm, hends]
    exact h.pending i time
  · rw [hcountdown] at hsome
    rw [hlatest]
    exact ⟨getElem?_append_of_some (h.latest hsome).1 _, (h.latest hsome).2⟩
  · rw [hends, ← h.ended, hlog, List.mem_append]
    exact or_iff_left (htold i time)
  · rw [hlog, count_append, count_eq_zero_iff.mpr (htold i)]
    exact h.once i

theorem pass (h : Follows duration moves (course duration moves)) (millis : Nat) :
    Follows duration (moves ++ [.pass millis]) ((course duration moves).next (.pass millis)) :=
  h.keep rfl (by intro i hturn; cases hturn) rfl rfl rfl
    (fun time hdeadline => Run.nextTime_le millis hdeadline (h.within time hdeadline))
    ⟨[], rfl, by simp⟩

theorem action (h : Follows duration moves (course duration moves)) (i : Nat) :
    Follows duration (moves ++ [.turn (.action i)])
      ((course duration moves).next (.turn (.action i))) :=
  h.keep rfl (by intro i hturn; cases hturn) rfl rfl rfl h.within
    ⟨_, rfl, by simp [Run.next, Run.move, Run.act]⟩

/-- What is open has ended, or the countdown runs for it. -/
theorem ends_or_pending {time : Nat} (h : Follows duration moves (course duration moves))
    (hopen : Open duration moves i time) : Ends duration moves i time ∨
      (course duration moves).run.countdown.deadline = some time ∧
        (course duration moves).run.latest.refresh = i := by
  by_cases hends : Ends duration moves i time
  · exact .inl hends
  · exact .inr ((h.pending i time).mpr ⟨hopen, hends⟩)

theorem sees (h : Follows duration moves (course duration moves))
    (hsees : (course duration moves).run.Sees i) : ∃ time,
      (course duration moves).run.countdown.deadline = some time ∧ clock duration moves = time ∧
        Open duration moves i time ∧ ∀ other, (.timer i, other) ∉ (course duration moves).log := by
  obtain ⟨rfl, hover⟩ := hsees
  obtain ⟨time, hdeadline, hpast⟩ := Run.isOver_iff.mp hover
  obtain ⟨hopen, hnot⟩ := (h.pending _ _).mp ⟨hdeadline, rfl⟩
  refine ⟨time, hdeadline, Nat.le_antisymm (h.within time hdeadline) hpast, hopen,
    fun other hmem => hnot ?_⟩
  have hends := (h.ended _ other).mp hmem
  rwa [hopen.refreshed.time_eq hends.refreshed]

theorem timer (h : Follows duration moves (course duration moves)) (i : Nat) :
    Follows duration (moves ++ [.turn (.timer i)])
      ((course duration moves).next (.turn (.timer i))) := by
  rw [Course.next, Run.next]
  by_cases hsees : (course duration moves).run.Sees i
  · obtain ⟨_, hdeadline, rfl, hopen, hfirst⟩ := h.sees hsees
    have hpending (j other : Nat) (hother : Open duration moves j other) :
        Ends duration (moves ++ [.turn (.timer i)]) j other := by
      rw [ends_concat_iff]
      refine (h.ends_or_pending hother).imp_right ?_
      rintro ⟨hdeadline', rfl⟩
      obtain rfl := Option.some.inj (hdeadline.symm.trans hdeadline')
      exact ⟨by rw [hsees.1], hother, rfl⟩
    rw [Run.move_of_sees hsees]
    refine ⟨?_, h.lasts, fun j other => ?_, fun other hother => ?_, fun hsome => ?_,
      fun j other => ?_, fun j => ?_⟩
    · rw [List.length_append, List.length_singleton, ← h.counted]
    · rw [open_concat_iff rfl]
      refine iff_of_false (fun hsome => ?_) fun hother => hother.2 (hpending _ _ hother.1)
      cases hsome.1
    · cases hother
    · cases hsome
    · rw [List.mem_append, h.ended, ends_concat_iff, List.mem_singleton]
      refine or_congr_right ⟨fun hnew => ?_, ?_⟩
      · obtain ⟨hj, rfl⟩ := Prod.mk.inj hnew
        obtain rfl := Task.timer.inj hj
        exact ⟨rfl, hopen, rfl⟩
      · rintro ⟨hturn, -, rfl⟩
        obtain rfl := Task.timer.inj (Move.turn.inj hturn)
        rfl
    · rw [count_append, count_singleton]
      split
      · next hj =>
        have hnone := count_eq_zero_iff.mpr hfirst
        rw [← hj]
        omega
      · exact h.once j
  · have hnone (j : Nat) (hturn : Move.turn (.timer i) = .turn (.timer j)) (time : Nat)
        (hopen : Open duration moves j time) (hclock : clock duration moves = time) :
        Ends duration moves j time := by
      cases hturn
      rcases h.ends_or_pending hopen with hends | ⟨hdeadline, hlatest⟩
      · exact hends
      · exact absurd ⟨hlatest.symm, Run.isOver_iff.mpr ⟨_, hdeadline, Nat.le_of_eq hclock.symm⟩⟩
          hsees
    obtain ⟨watched, hmove⟩ := Run.move_of_not_sees hsees
    rw [hmove]
    exact h.keep rfl hnone rfl rfl rfl h.within ⟨[], rfl, by simp⟩

end Follows

theorem follows (duration : Nat) (moves : List Move) :
    Follows duration moves (course duration moves) := by
  induction moves using List.reverseRecOn with
  | nil =>
    refine ⟨rfl, rfl, fun i time => ?_, nofun, nofun, fun i time => ?_, fun i => Nat.zero_le _⟩
    · refine iff_of_false (fun hsome => nomatch hsome.1) ?_
      rintro ⟨⟨early, rest, later, hmoves, -⟩, -⟩
      simp at hmoves
    · refine iff_of_false List.not_mem_nil ?_
      rintro ⟨before, after, hmoves, -⟩
      simp at hmoves
  | append_singleton moves m ih =>
    rw [course_concat]
    cases m with
    | refresh rest => exact ih.refresh
    | disable => exact ih.disable
    | pass millis => exact ih.pass millis
    | turn task =>
      cases task with
      | timer i => exact ih.timer i
      | action i => exact ih.action i

end LocalPlay.Timing.Countdown
