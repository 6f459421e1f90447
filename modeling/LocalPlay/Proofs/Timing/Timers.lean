import LocalPlay.Proofs.Timing.Actions

/-!
# Timers that are set and aborted

A countdown can be kept without a deadline that somebody asks for. With every refresh a task is
spawned that sleeps for the duration and then leaves the action behind as a task of its own. Whoever
refreshes or disables has a handle of the timer that was spawned last, and aborts it without asking
how far it has come. Neither call waits for anything, so that each is one move. A task that is done
is not bothered by being aborted, and an action goes by another name than its timer; but a timer
that is due and has not had its turn yet is lost with its action.

At most one timer lives at any time, it is the one that the countdown runs for, and all comes about
as with the countdown: `Keeps`. So what the moves say of countdowns they say of timers as well:
`debounces`.
-/

namespace LocalPlay.Timing

open Countdown (Task Move Action Log Run Course Refreshed Undisturbed Open Ends count)

/-- A task that is neither done nor aborted. -/
inductive Living where
  /-- It sleeps from its first turn on; then it is known when it is due. -/
  | timer (action : Action) (due : Option Nat)
  | action (action : Action)
  deriving DecidableEq

namespace Living

def task : Living → Task
  | timer a _ => .timer a.refresh
  | action a => .action a.refresh

/-- It has a turn before time passes. -/
def isReady (clock : Nat) : Living → Bool
  | timer _ due => due.all (· ≤ clock)
  | action a => a.taken = 0

def due? : Living → Option Nat
  | timer _ due => due
  | action _ => none

/-- The place of the refresh whose timer this is. -/
def timer? : Living → Option Nat
  | timer a _ => some a.refresh
  | action _ => none

/-- Who lives on after a turn, and what was done. A timer that is due leaves its action behind as a
task of its own. -/
def turn (duration clock : Nat) : Living → List Living × Log
  | timer a due =>
    let due := due.getD (clock + duration)
    if due ≤ clock then ([action a], [(.timer a.refresh, clock)]) else ([timer a (some due)], [])
  | action a => (a.turn.map action, [(.action a.refresh, clock)])

end Living

structure Timers where
  duration : Nat
  clock : Nat := 0
  moves : Nat := 0
  living : List Living := []
  /-- The timer that was spawned last, unless it has been aborted. It may be done. -/
  handle : Option Task := none
  deriving DecidableEq

namespace Timers

def abort (handle : Option Task) (living : List Living) : List Living :=
  living.filter (some ·.task ≠ handle)

/-- The task has a turn, if it lives. -/
def giveTurn (task : Task) (duration clock : Nat) (living : List Living) : List Living × Log :=
  let turns := living.map fun l => if l.task = task then l.turn duration clock else ([l], [])
  (turns.flatMap (·.1), turns.flatMap (·.2))

/-- What the clock shows after some time: it stands still while somebody is ready, and does not run
past the time when somebody is due. -/
def nextTime (t : Timers) (millis : Nat) : Nat :=
  if t.living.any (·.isReady t.clock) then t.clock
  else (t.living.filterMap (·.due?)).foldl min (t.clock + millis)

def move (t : Timers) : Move → Timers × Log
  | .refresh rest =>
    let timer := Living.timer { refresh := t.moves, rest } none
    ({ t with living := abort t.handle (t.living ++ [timer]), handle := some timer.task }, [])
  | .disable => ({ t with living := abort t.handle t.living, handle := none }, [])
  | .pass millis => ({ t with clock := t.nextTime millis }, [])
  | .turn task =>
    let (living, told) := giveTurn task t.duration t.clock t.living
    ({ t with living }, told)

def next (t : Timers) (m : Move) : Timers × Log :=
  ({ (t.move m).1 with moves := t.moves + 1 }, (t.move m).2)

/-- What comes of moves when nothing has been spawned before, with what has been done. -/
def course (duration : Nat) (moves : List Move) : Timers × Log :=
  moves.foldl (fun c m => ((c.1.next m).1, c.2 ++ (c.1.next m).2)) ({ duration }, [])

theorem course_concat (duration : Nat) (moves : List Move) (m : Move) :
    course duration (moves ++ [m]) = (((course duration moves).1.next m).1,
      (course duration moves).2 ++ ((course duration moves).1.next m).2) :=
  List.foldl_append ..

def log (duration : Nat) (moves : List Move) : Log :=
  (course duration moves).2

/-- The timers that live, by the places of their refreshes. -/
def waiting (t : Timers) : List Nat :=
  t.living.filterMap (·.timer?)

/-- Those who live because of a countdown and its actions. -/
def livingOf (r : Run) : List Living :=
  r.acting.map .action ++ r.countdown.deadline.toList.map fun due =>
    .timer r.latest (if r.watched then some due else none)

/-- The timers keep what the countdown has. -/
structure Keeps (r : Run) (t : Timers) : Prop where
  duration : t.duration = r.countdown.duration
  clock : t.clock = r.clock
  moves : t.moves = r.moves
  living : t.living = livingOf r
  /-- No time passes before the first turn. -/
  fresh : r.watched = false → ∀ due, r.countdown.deadline = some due →
    due = r.clock + r.countdown.duration
  handle : r.countdown.deadline.isSome = true → t.handle = some (.timer r.latest.refresh)
  handles : ∀ task, t.handle = some task → ∃ i < t.moves, task = .timer i

variable {r : Run} {t : Timers}

theorem task_ne_timer {acting : List Action} {l : Living} (hl : l ∈ acting.map .action) (i : Nat) :
    l.task ≠ .timer i := by
  obtain ⟨a, -, rfl⟩ := List.mem_map.mp hl
  intro htask
  cases htask

/-- Whoever is aborted is the only timer. -/
theorem Keeps.abort_living (h : Keeps r t) : abort t.handle t.living = r.acting.map .action := by
  have hactions : (r.acting.map Living.action).filter (some ·.task ≠ t.handle) =
      r.acting.map .action := by
    rw [List.filter_eq_self]
    intro l hl
    rw [decide_eq_true_eq]
    intro hhandle
    obtain ⟨i, -, htask⟩ := h.handles _ hhandle.symm
    exact task_ne_timer hl i htask
  rw [abort, h.living, livingOf, List.filter_append, hactions]
  cases hdeadline : r.countdown.deadline with
  | none => simp
  | some due => simp [Living.task, h.handle (by simp [hdeadline])]

theorem Keeps.refresh (h : Keeps r t) (rest : Nat) :
    Keeps (r.next (.refresh rest)).1 (t.next (.refresh rest)).1 where
  duration := h.duration
  clock := h.clock
  moves := congrArg (· + 1) h.moves
  living := by
    have hnew : abort t.handle [Living.timer { refresh := t.moves, rest } none] =
        [.timer { refresh := t.moves, rest } none] := by
      rw [abort, List.filter_eq_self]
      intro l hl
      rw [List.mem_singleton.mp hl, decide_eq_true_eq]
      intro hhandle
      obtain ⟨i, hi, htask⟩ := h.handles _ hhandle.symm
      exact absurd (Task.timer.inj htask) (Nat.ne_of_gt hi)
    show abort t.handle (t.living ++ _) = _
    rw [abort, List.filter_append, ← abort, ← abort, h.abort_living, hnew, h.moves]
    rfl
  fresh _ due hdeadline := (Option.some.inj hdeadline).symm
  handle _ := by rw [Timers.next, move, h.moves]; rfl
  handles task hhandle := ⟨t.moves, Nat.lt_succ_self _, (Option.some.inj hhandle).symm⟩

theorem Keeps.disable (h : Keeps r t) : Keeps (r.next .disable).1 (t.next .disable).1 where
  duration := h.duration
  clock := h.clock
  moves := congrArg (· + 1) h.moves
  living := by
    show abort t.handle t.living = _
    rw [h.abort_living]
    exact (List.append_nil _).symm
  fresh _ due hdeadline := by cases hdeadline
  handle hsome := by cases hsome
  handles task hhandle := by cases hhandle

/-- Nobody else is ready or due than the countdown says. -/
theorem Keeps.nextTime (h : Keeps r t) (millis : Nat) : t.nextTime millis = r.nextTime millis := by
  have hactions : (r.acting.map Living.action).any (·.isReady r.clock) =
      r.acting.any (·.taken = 0) := List.any_map
  have hnone : (r.acting.map Living.action).filterMap (·.due?) = [] := by
    rw [List.filterMap_map, List.filterMap_eq_nil_iff]
    exact fun a _ => rfl
  rw [Timers.nextTime, Run.nextTime, Run.isBusy, h.living, h.clock, livingOf, List.any_append,
    hactions, List.filterMap_append, hnone, List.nil_append, Bool.or_comm]
  cases hdeadline : r.countdown.deadline with
  | none => simp [Countdown.isOver, hdeadline]
  | some due =>
    cases hwatched : r.watched with
    | false => simp [Living.isReady]
    | true => simp [Living.isReady, Living.due?, Countdown.isOver, hdeadline]

theorem Keeps.pass (h : Keeps r t) (millis : Nat) :
    Keeps (r.next (.pass millis)).1 (t.next (.pass millis)).1 where
  duration := h.duration
  clock := h.nextTime millis
  moves := congrArg (· + 1) h.moves
  living := h.living
  fresh hwatched due hdeadline := by
    have hwatched' : r.watched = false := hwatched
    have hdeadline' : r.countdown.deadline = some due := hdeadline
    have hbusy : r.isBusy = true := by simp [Run.isBusy, hwatched', hdeadline']
    have hclock : r.nextTime millis = r.clock := if_pos hbusy
    show due = r.nextTime millis + r.countdown.duration
    rw [hclock]
    exact h.fresh hwatched' due hdeadline'
  handle := h.handle
  handles task hhandle := by
    obtain ⟨i, hi, htask⟩ := h.handles task hhandle
    exact ⟨i, Nat.lt_succ_of_lt hi, htask⟩

/-! ### Turns -/

theorem giveTurn_append (task : Task) (duration clock : Nat) (xs ys : List Living) :
    giveTurn task duration clock (xs ++ ys) =
      ((giveTurn task duration clock xs).1 ++ (giveTurn task duration clock ys).1,
        (giveTurn task duration clock xs).2 ++ (giveTurn task duration clock ys).2) := by
  simp only [giveTurn, List.map_append, List.flatMap_append]

theorem giveTurn_singleton (task : Task) (duration clock : Nat) (l : Living) :
    giveTurn task duration clock [l] =
      if l.task = task then l.turn duration clock else ([l], []) := by
  simp [giveTurn]

theorem giveTurn_of_ne {task : Task} {living : List Living} (duration clock : Nat)
    (hne : ∀ l ∈ living, l.task ≠ task) : giveTurn task duration clock living = (living, []) := by
  induction living with
  | nil => rfl
  | cons l living ih =>
    obtain ⟨hl, hliving⟩ := List.forall_mem_cons.mp hne
    rw [← List.singleton_append, giveTurn_append, ih hliving, giveTurn_singleton, if_neg hl]
    rfl

theorem giveTurn_actions (i duration clock : Nat) (acting : List Action) :
    giveTurn (.action i) duration clock (acting.map .action) =
      ((acting.flatMap fun a => if a.refresh = i then a.turn else [a]).map .action,
        (acting.filter (·.refresh = i)).map fun _ => (.action i, clock)) := by
  induction acting with
  | nil => rfl
  | cons a acting ih =>
    rw [List.map_cons, ← List.singleton_append, giveTurn_append, ih, giveTurn_singleton,
      List.flatMap_cons, List.map_append]
    by_cases ha : a.refresh = i
    · simp [Living.task, Living.turn, ha]
    · simp [Living.task, ha]

/-- What a turn comes to. -/
theorem Keeps.turn (h : Keeps r t) {task : Task} {r' : Run} {told : Log}
    (hmove : r.move (.turn task) = (r', told))
    (hliving : giveTurn task r.countdown.duration r.clock (livingOf r) = (livingOf r', told))
    (hclock : r'.clock = r.clock) (hduration : r'.countdown.duration = r.countdown.duration)
    (hlatest : r'.latest = r.latest)
    (hdeadline : ∀ due, r'.countdown.deadline = some due → r.countdown.deadline = some due)
    (hwatched : r'.watched = false → r.watched = false) :
    Keeps (r.next (.turn task)).1 (t.next (.turn task)).1 ∧
      (r.next (.turn task)).2 = (t.next (.turn task)).2 := by
  have hmove' : t.move (.turn task) = ({ t with living := livingOf r' }, told) := by
    rw [move, h.living, h.duration, h.clock, hliving]
  rw [Run.next, Timers.next, hmove, hmove']
  refine ⟨⟨?_, ?_, ?_, rfl, fun hfresh due hdue => ?_, fun hsome => ?_, fun task htask => ?_⟩, rfl⟩
  · exact h.duration.trans hduration.symm
  · exact h.clock.trans hclock.symm
  · exact congrArg (· + 1) h.moves
  · show due = r'.clock + r'.countdown.duration
    rw [hclock, hduration]
    exact h.fresh (hwatched hfresh) due (hdeadline due hdue)
  · obtain ⟨due, hdue⟩ := Option.isSome_iff_exists.mp hsome
    show t.handle = some (.timer r'.latest.refresh)
    rw [hlatest]
    exact h.handle (by rw [hdeadline due hdue]; rfl)
  · obtain ⟨i, hi, rfl⟩ := h.handles task htask
    exact ⟨i, Nat.lt_succ_of_lt hi, rfl⟩

theorem Keeps.action (h : Keeps r t) (i : Nat) :
    Keeps (r.next (.turn (.action i))).1 (t.next (.turn (.action i))).1 ∧
      (r.next (.turn (.action i))).2 = (t.next (.turn (.action i))).2 := by
  have hmove : r.move (.turn (.action i)) = ((r.act i).1, (r.act i).2) := rfl
  refine h.turn hmove ?_ rfl rfl rfl (fun due hdue => hdue) id
  have htimers : ∀ l ∈ r.countdown.deadline.toList.map fun due =>
      Living.timer r.latest (if r.watched then some due else none), l.task ≠ .action i := by
    intro l hl
    obtain ⟨due, -, rfl⟩ := List.mem_map.mp hl
    exact nofun
  rw [livingOf, giveTurn_append, giveTurn_actions, giveTurn_of_ne _ _ htimers, List.append_nil]
  rfl

/-- A timer that has its first turn is due when the countdown is over. -/
theorem Keeps.due (h : Keeps r t) {due : Nat} (hdeadline : r.countdown.deadline = some due) :
    (if r.watched then some due else none).getD (r.clock + r.countdown.duration) = due := by
  cases hwatched : r.watched with
  | true => rfl
  | false => exact (h.fresh hwatched due hdeadline).symm

theorem Keeps.giveTurn_timer (h : Keeps r t) {due : Nat}
    (hdeadline : r.countdown.deadline = some due) :
    giveTurn (.timer r.latest.refresh) r.countdown.duration r.clock (livingOf r) =
      if due ≤ r.clock then
        ((r.acting ++ [r.latest]).map .action, [(.timer r.latest.refresh, r.clock)])
      else (r.acting.map .action ++ [.timer r.latest (some due)], []) := by
  have hactions : ∀ l ∈ r.acting.map Living.action, l.task ≠ .timer r.latest.refresh :=
    fun l hl => task_ne_timer hl _
  rw [livingOf, hdeadline, giveTurn_append, giveTurn_of_ne _ _ hactions, Option.toList_some,
    List.map_singleton, giveTurn_singleton, Living.task, if_pos rfl, Living.turn, h.due hdeadline]
  split
  · rw [List.map_append]
    rfl
  · rfl

/-- The timer that is to have a turn does not live. -/
theorem giveTurn_timer_of_ne {i : Nat} (duration clock : Nat)
    (hne : r.countdown.deadline.isSome = true → i ≠ r.latest.refresh) :
    giveTurn (.timer i) duration clock (livingOf r) = (livingOf r, []) := by
  refine giveTurn_of_ne _ _ fun l hl htask => ?_
  rcases List.mem_append.mp hl with haction | htimer
  · exact task_ne_timer haction i htask
  · obtain ⟨due, hdue, rfl⟩ := List.mem_map.mp htimer
    rw [Option.mem_toList] at hdue
    exact hne (by rw [hdue]; rfl) (Task.timer.inj htask).symm

theorem Keeps.timer (h : Keeps r t) (i : Nat) :
    Keeps (r.next (.turn (.timer i))).1 (t.next (.turn (.timer i))).1 ∧
      (r.next (.turn (.timer i))).2 = (t.next (.turn (.timer i))).2 := by
  by_cases hlatest : i = r.latest.refresh
  · cases hdeadline : r.countdown.deadline with
    | none =>
      have hover : r.countdown.isOver r.clock = false := by simp [Countdown.isOver, hdeadline]
      have hmove : r.move (.turn (.timer i)) = ({ r with watched := true }, []) := by
        rw [Run.move, if_pos hlatest, Run.look_of_not_isOver hover]
      refine h.turn hmove ?_ rfl rfl rfl (fun due hdue => hdue) (fun hwatched => by cases hwatched)
      rw [giveTurn_timer_of_ne _ _ (by simp [hdeadline])]
      simp [livingOf, hdeadline]
    | some due =>
      subst hlatest
      by_cases hpast : due ≤ r.clock
      · have hover : r.countdown.isOver r.clock = true := Run.isOver_iff.mpr ⟨due, hdeadline, hpast⟩
        refine h.turn (Run.move_of_sees ⟨rfl, hover⟩) ?_ rfl rfl rfl
          (fun due hdue => by cases hdue) id
        rw [h.giveTurn_timer hdeadline, if_pos hpast, livingOf]
        simp [Countdown.disable]
      · have hover : r.countdown.isOver r.clock = false := by
          simpa [Countdown.isOver, hdeadline] using hpast
        have hmove : r.move (.turn (.timer r.latest.refresh)) =
            ({ r with watched := true }, []) := by
          rw [Run.move, if_pos rfl, Run.look_of_not_isOver hover]
        refine h.turn hmove ?_ rfl rfl rfl (fun due hdue => hdue)
          (fun hwatched => by cases hwatched)
        rw [h.giveTurn_timer hdeadline, if_neg hpast]
        simp [livingOf, hdeadline]
  · have hmove : r.move (.turn (.timer i)) = (r, []) := by rw [Run.move, if_neg hlatest]
    exact h.turn hmove (giveTurn_timer_of_ne _ _ fun _ => hlatest) rfl rfl rfl
      (fun due hdue => hdue) id

theorem keeps_next (h : Keeps r t) (m : Move) :
    Keeps (r.next m).1 (t.next m).1 ∧ (r.next m).2 = (t.next m).2 := by
  cases m with
  | refresh rest => exact ⟨h.refresh rest, rfl⟩
  | disable => exact ⟨h.disable, rfl⟩
  | pass millis => exact ⟨h.pass millis, rfl⟩
  | turn task =>
    cases task with
    | timer i => exact h.timer i
    | action i => exact h.action i

theorem keeps_course (duration : Nat) (moves : List Move) :
    Keeps (Countdown.course duration moves).run (course duration moves).1 ∧
      (Countdown.course duration moves).log = (course duration moves).2 := by
  induction moves using List.reverseRecOn with
  | nil =>
    refine ⟨⟨rfl, rfl, rfl, rfl, fun _ due hdue => ?_, fun hsome => ?_, fun task htask => ?_⟩, rfl⟩
    · cases hdue
    · cases hsome
    · cases htask
  | append_singleton moves m ih =>
    obtain ⟨hkeeps, hlog⟩ := ih
    obtain ⟨hnext, htold⟩ := keeps_next hkeeps m
    rw [Countdown.course_concat, course_concat]
    exact ⟨hnext, by rw [Course.next, htold, hlog]⟩

theorem Keeps.waiting (h : Keeps r t) :
    t.waiting = r.countdown.deadline.toList.map fun _ => r.latest.refresh := by
  have hactions : (r.acting.map Living.action).filterMap Living.timer? = [] := by
    rw [List.filterMap_map, List.filterMap_eq_nil_iff]
    exact fun a _ => rfl
  rw [Timers.waiting, h.living, livingOf, List.filterMap_append, hactions, List.nil_append,
    List.filterMap_map]
  cases r.countdown.deadline <;> rfl

end Timers

open Timers (log)

/-- The action of a refresh begins just when its countdown is over, at the turn that its timer has
then, and only if no call has come between the refresh and that turn. It begins once. It has begun
if no call came until the clock had got beyond that time; and as long as no call comes it can always
begin still. Its own first turn is at the same time, and it gets one turn further with every turn it
has, until it has had all of them, whatever calls come meanwhile. An action that has not begun has
no turn.

At most one timer lives at any time. It is that of the refresh which no call has followed and which
has not ended, and this is what the countdown runs for. -/
theorem debounces (duration : Nat) (moves : List Move) :
    (∀ i time, (.timer i, time) ∈ log duration moves ↔ Ends duration moves i time) ∧
    (∀ i, count (.timer i) (log duration moves) ≤ 1) ∧
    (∀ i time, Refreshed duration moves i time → Undisturbed duration moves i (time + 1) →
      time < Countdown.clock duration moves → (.timer i, time) ∈ log duration moves) ∧
    (∀ i time, Open duration moves i time → ∃ more, (∀ m ∈ more, m.interrupts = false) ∧
      (.timer i, time) ∈ log duration (moves ++ more)) ∧
    (∀ i time rest, (.timer i, time) ∈ log duration moves → moves[i]? = some (.refresh rest) →
      (Countdown.clock duration moves = time ∨ (.action i, time) ∈ log duration moves) ∧
      ∀ more, count (.action i) (log duration (moves ++ more)) =
        min (rest + 1)
          (count (.action i) (log duration moves) + more.count (.turn (.action i)))) ∧
    (∀ i time, (.action i, time) ∈ log duration moves →
      ∃ start, (.timer i, start) ∈ log duration moves) ∧
    (Timers.course duration moves).1.clock = Countdown.clock duration moves ∧
    (Timers.course duration moves).1.waiting.length ≤ 1 ∧
    (∀ i, i ∈ (Timers.course duration moves).1.waiting ↔
      ∃ time, Open duration moves i time ∧ ¬ Ends duration moves i time) ∧
    (∀ i time, Open duration moves i time ∧ ¬ Ends duration moves i time ↔
      (Countdown.course duration moves).run.countdown.deadline = some time ∧
        (Countdown.course duration moves).run.latest.refresh = i) := by
  have hlog (moves : List Move) : log duration moves = (Countdown.course duration moves).log :=
    (Timers.keeps_course duration moves).2.symm
  have hkeeps := (Timers.keeps_course duration moves).1
  have hfollows := Countdown.follows duration moves
  simp only [hlog]
  refine ⟨hfollows.ended, hfollows.once, fun i time hrefreshed hcalm hpast => ?_,
    fun i time hopen => ?_, fun i time rest hbegun hmove => ⟨?_, ?_⟩,
    fun i time => Countdown.timer_mem_log, hkeeps.clock, ?_, fun i => ?_,
    fun i time => (hfollows.pending i time).symm⟩
  · exact (hfollows.ended i time).mpr (hrefreshed.ends hcalm hpast)
  · obtain ⟨more, hmore, hends⟩ := hopen.exists_ends
    exact ⟨more, hmore, ((Countdown.follows duration (moves ++ more)).ended i time).mpr hends⟩
  · exact Countdown.action_mem_log hbegun
  · exact Countdown.count_action_append hbegun hmove
  · rw [hkeeps.waiting, List.length_map, Option.length_toList]
    split <;> decide
  · simp only [hkeeps.waiting, List.mem_map, Option.mem_toList, ← hfollows.pending]

/-- The refresh is disabled when the clock shows its end already, and the timer has its turn after
that. -/
def disabledAtEnd : List Move :=
  [.refresh 0, .turn (.timer 0), .pass 6000, .disable, .turn (.timer 0), .pass 1]

/-- No call comes before the clock shows the end of the countdown, and time goes on, but the action
has not begun. -/
theorem taken_back_at_end :
    Refreshed 6000 disabledAtEnd 0 6000 ∧ Undisturbed 6000 disabledAtEnd 0 6000 ∧
      Countdown.clock 6000 disabledAtEnd = 6001 ∧ (.timer 0, 6000) ∉ log 6000 disabledAtEnd := by
  refine ⟨⟨[], 0, _, rfl, rfl, rfl⟩, ?_, by decide, by decide⟩
  show Undisturbed 6000 ([] ++ [.refresh 0] ++ [.turn (.timer 0)] ++ [.pass 6000] ++ [.disable] ++
    [.turn (.timer 0)] ++ [.pass 1]) 0 6000
  simp only [Undisturbed, forall_split_concat]
  refine ⟨⟨⟨⟨⟨⟨fun before m after hsplit => ?_, by decide⟩, by decide⟩, by decide⟩, by decide⟩,
    by decide⟩, by decide⟩
  simp at hsplit

/-- The first refresh is postponed. The second ends, and its action has its two turns although there
is another refresh and that one is disabled. -/
example : log 6000 [.refresh 0, .turn (.timer 0), .pass 4000, .refresh 1, .turn (.timer 0),
    .turn (.timer 3), .pass 6000, .turn (.timer 3), .refresh 0, .turn (.action 3), .disable,
    .turn (.action 3), .turn (.timer 8), .pass 9000] =
      [(.timer 3, 10000), (.action 3, 10000), (.action 3, 10000)] := by
  decide

end LocalPlay.Timing
