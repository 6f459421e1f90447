import LocalPlay.Proofs.Session.Stretches.Turns
import Mathlib.Algebra.GroupWithZero.Nat
import Mathlib.Algebra.Order.BigOperators.Group.List
import Mathlib.Algebra.Order.Group.Nat
import Mathlib.Data.List.Perm.Basic

/-!
# Sessions settle

Every turn leaves less to do: `load` counts what is ready with all that can follow from it, how
often calls can still go on to wait for something else, and the work at the hosted proxy. It is
never more than the turns a session allows for, so nothing is ready when the session has settled.
-/

namespace LocalPlay.Session

open Net Wire Overlay Timing

/-! ### What is left to do -/

/-- At least as many turns as can follow from an activity, its own included. -/
def Activity.turns : Activity → Nat
  | resume _ => 1
  | cleanup => 2
  | idleStop => 3
  | host job => job.turns

/-- How often a call can still go on from here to wait for something else. -/
def Pause.stage : Pause → Nat
  | handshake _ => 2
  | confirmation | joinReply => 1
  | _ => 0

theorem Pause.stage_plan (pause : Pause) : pause.plan.stage = pause.stage := by
  cases pause with
  | _ => rfl

theorem Pause.Next.stage_lt {timeouts : Timeouts} {before pause : Pause} {timeout : Nat}
    (h : before.Next timeouts timeout pause) : pause.stage < before.stage := by
  cases h with
  | operate operation =>
    cases operation with
    | _ => simp [Operation.pause, stage]
  | awaitAddress hconfirmed =>
    cases before with
    | confirmation => simp [stage]
    | joinReply => simp [stage]
    | _ => simp [confirmed?] at hconfirmed

def allTurns (ready : List Activity) : Nat :=
  (ready.map (·.turns)).sum

def stages (waiting : List Waiting) : Nat :=
  (waiting.map (·.pause.stage)).sum

/-- All that is left to do until something happens. -/
def load (s : Session) : Nat :=
  allTurns s.ready + stages s.waiting + (s.hosted.map (·.work)).getD 0

theorem allTurns_cons (activity : Activity) (ready : List Activity) :
    allTurns (activity :: ready) = activity.turns + allTurns ready :=
  List.sum_cons

theorem allTurns_concat (ready : List Activity) (activity : Activity) :
    allTurns (ready ++ [activity]) = allTurns ready + activity.turns := by
  rw [allTurns, List.map_append, List.sum_append, List.map_singleton, List.sum_singleton, allTurns]

theorem stages_concat (waiting : List Waiting) (w : Waiting) :
    stages (waiting ++ [w]) = stages waiting + w.pause.stage := by
  rw [stages, List.map_append, List.sum_append, List.map_singleton, List.sum_singleton, stages]

theorem allTurns_le_of_sublist {ready more : List Activity} (h : ready.Sublist more) :
    allTurns ready ≤ allTurns more :=
  (h.map _).sum_le_sum fun _ _ => Nat.zero_le _

theorem stages_bare (waiting : List Waiting) : stages (waiting.map (·.bare)) = stages waiting := by
  rw [stages, List.map_map]
  exact congrArg List.sum (List.map_congr_left fun w _ => w.pause.stage_plan)

/-- The stage of a call that waits no longer is not counted. -/
theorem stages_filter {waiting : List Waiting} {w : Waiting} (hw : w ∈ waiting) :
    stages (waiting.filter (·.id ≠ w.id)) + w.pause.stage ≤ stages waiting := by
  have hsplit := ((List.filter_append_perm (·.id ≠ w.id) waiting).map (·.pause.stage)).sum_eq
  rw [List.map_append, List.sum_append] at hsplit
  have hown : w ∈ waiting.filter (fun other => !decide (other.id ≠ w.id)) :=
    List.mem_filter.mpr ⟨hw, by simp⟩
  have hstage := List.le_sum_of_mem (List.mem_map_of_mem (f := (·.pause.stage)) hown)
  rw [stages, stages]
  omega

theorem load_le_turns (s : Session) : s.load ≤ machine.turns s := by
  have hready : allTurns s.ready ≤ s.ready.length * 3 := by
    have hturns : ∀ turns ∈ s.ready.map (·.turns), turns ≤ 3 := by
      refine List.forall_mem_map.mpr fun activity _ => ?_
      cases activity with
      | host job =>
        cases job with
        | _ => simp [Activity.turns, Job.turns]
      | _ => simp [Activity.turns]
    have hsum := List.sum_le_card_nsmul _ 3 hturns
    rwa [List.length_map] at hsum
  have hwaiting : stages s.waiting ≤ s.waiting.length * 2 := by
    have hstages : ∀ stage ∈ s.waiting.map (·.pause.stage), stage ≤ 2 := by
      refine List.forall_mem_map.mpr fun w _ => ?_
      cases w.pause with
      | _ => simp [Pause.stage]
    have hsum := List.sum_le_card_nsmul _ 2 hstages
    rwa [List.length_map] at hsum
  have hwork : (s.hosted.map (·.work)).getD 0 ≤ 4 * (s.hosted.map (·.backlog)).getD 0 := by
    cases s.hosted with
    | none => exact Nat.le_refl _
    | some host =>
      have hbacklog := host.backlog_eq
      show host.work ≤ 4 * host.backlog
      rw [Host.work]
      omega
  show s.load ≤ 8 * (s.ready.length + s.waiting.length + (s.hosted.map (·.backlog)).getD 0) + 16
  rw [load]
  omega

namespace Act

theorem Rests.load_le {a b : Act} (h : Rests a b) : b.session.load ≤ a.session.load := by
  have hwaiting : b.session.waiting = a.session.waiting := congrArg Affairs.waiting h.affairs
  have hready := allTurns_le_of_sublist h.ready
  rw [load, load, hwaiting]
  rcases h.hosted with hnone | ⟨hsame, -⟩
  · rw [hnone, Option.map_none, Option.getD_none]
    omega
  · rw [hsame]
    omega

theorem load_wake (a : Act) (activity : Activity) :
    (a.wake activity).session.load ≤ a.session.load + activity.turns := by
  rw [wake_eq_ite, load, load]
  dsimp only
  split
  · omega
  · rw [allTurns_concat]
    omega

theorem load_foldl_wake (a : Act) (jobs : List Job) :
    (jobs.foldl (fun a job => a.wake (.host job)) a).session.load ≤
      a.session.load + Job.allTurns jobs := by
  induction jobs generalizing a with
  | nil => exact Nat.le_refl _
  | cons job jobs ih =>
    have hfirst : (a.wake (.host job)).session.load ≤ a.session.load + job.turns :=
      a.load_wake (.host job)
    have hrest := ih (a.wake (.host job))
    rw [List.foldl_cons, Job.allTurns_cons]
    omega

theorem load_endWait {a : Act} {call : Nat} {w : Waiting}
    (hfind : a.session.waiting.find? (·.id == call) = some w) (latches : Latches Signal) :
    (a.endWait call latches).session.load + w.pause.stage ≤ a.session.load := by
  obtain rfl : w.id = call := key_of_find? hfind
  have hstages := stages_filter (List.mem_of_find?_eq_some hfind)
  have hended : (a.endWait w.id latches).session.load =
      allTurns a.session.ready + stages (a.session.waiting.filter (·.id ≠ w.id)) +
        (a.session.hosted.map (·.work)).getD 0 := rfl
  rw [hended, load]
  omega

theorem load_pause (a : Act) (call : Nat) (timeout : Option Nat) (pause : Pause) :
    (a.pause call timeout pause).session.load = a.session.load + 1 + pause.stage := by
  have hpaused : (a.pause call timeout pause).session.load =
      allTurns (.resume call :: a.session.ready) + stages (a.session.waiting ++
        [⟨call, timeout.map (a.session.clock + ·), pause⟩]) +
          (a.session.hosted.map (·.work)).getD 0 := rfl
  rw [hpaused, load, allTurns_cons, stages_concat, Activity.turns]
  dsimp only
  omega

theorem load_resume (a : Act) (call : Nat) :
    (a.resume call).session.load ≤ a.session.load := by
  have hresumes := a.resumes call
  generalize a.resume call = b at hresumes ⊢
  cases hresumes with
  | absent => exact Nat.le_refl _
  | waitsOn => exact Nat.le_refl _
  | finishes hfind _ hrests =>
    have hended := load_endWait hfind
    have hless := hrests.load_le
    exact Nat.le_trans hless (Nat.le_trans (Nat.le_add_right _ _) (hended _))
  | @pauses _ latches _ _ pause hfind _ _ hrests hnext =>
    have hended := load_endWait hfind latches
    have hless := hrests.load_le
    have hstage := hnext.stage_lt
    rw [load_pause]
    omega

theorem load_cleanup (a : Act) : a.cleanup.session.load ≤ a.session.load + 1 := by
  have hcleans := a.cleans
  generalize a.cleanup = b at hcleans ⊢
  cases hcleans with
  | nothing => exact Nat.le_succ _
  | idle hrests => exact Nat.le_succ_of_le hrests.load_le
  | @call b id hrests =>
    have hwake := b.load_wake (.resume id)
    have hless := hrests.load_le
    have hstages : stages (b.session.waiting.map (·.released id)) = stages b.session.waiting := by
      rw [← stages_bare, ← stages_bare b.session.waiting, List.map_map]
      exact congrArg stages (List.map_congr_left fun w _ => w.bare_released id)
    have hload : (b.wake (.resume id)).session.load =
        allTurns (b.wake (.resume id)).session.ready + stages b.session.waiting +
          (b.session.hosted.map (·.work)).getD 0 := by
      rw [wake_eq_ite]
      rfl
    rw [hload] at hwake
    show allTurns (b.wake (.resume id)).session.ready + stages (b.session.waiting.map _) +
      (b.session.hosted.map (·.work)).getD 0 ≤ _
    rw [hstages]
    exact Nat.le_trans hwake (Nat.add_le_add_right hless 1)

theorem load_stopReceiver (a : Act) (stopper : Stopper) :
    (a.stopReceiver stopper).2.session.load ≤ a.session.load + 2 := by
  rw [stopReceiver]
  cases a.session.receiver with
  | listening => exact load_wake _ .cleanup
  | _ => exact Nat.le_add_right _ _

/-- Every turn leaves less to do than there was with it. -/
theorem load_perform {a : Act} (hemployed : ∀ host, a.session.hosted = some host → host.Employed)
    (activity : Activity) :
    (a.perform activity).session.load < a.session.load + activity.turns := by
  cases activity with
  | resume call => exact Nat.lt_succ_of_le (a.load_resume call)
  | cleanup => exact Nat.lt_succ_of_le a.load_cleanup
  | idleStop => exact Nat.lt_succ_of_le (a.load_stopReceiver .idleCountdown)
  | host job =>
    rw [perform, atHost]
    split
    · rename_i host hhost
      have hwork := Host.work_perform (hemployed host hhost) a.session.clock
        a.session.link job
      generalize host.perform a.session.clock a.session.link job = scene at hwork
      have hadopt := load_foldl_wake { session := { a.session with hosted := some scene.host }
                                       told := a.told ++ scene.notices.map .host } scene.jobs
      refine Nat.lt_of_le_of_lt hadopt ?_
      show allTurns a.session.ready + stages a.session.waiting + scene.host.work + _ <
        allTurns a.session.ready + stages a.session.waiting + (a.session.hosted.map _).getD 0 +
          job.turns
      rw [hhost]
      show _ < _ + _ + host.work + job.turns
      omega
    · have hturns : 0 < job.turns := by
        cases job with
        | _ => simp [Job.turns]
      exact Nat.lt_add_of_pos_right hturns

end Act

/-! ### Settling -/

variable {s t : Session} {told : List Notice}

/-- What has been ready longest has its turn, and less is left to do. -/
theorem Sound.turn (h : s.Sound) (hturn : s.turn = some (t, told)) :
    ∃ activity ∈ s.ready, s.move (.turn activity) = ⟨t, told⟩ ∧ t.load < s.load := by
  rw [Session.turn] at hturn
  split at hturn
  · cases hturn
  · rename_i activity ready hready
    have hmem : activity ∈ s.ready := hready ▸ List.mem_cons_self
    have hless := Act.load_perform (a := { session := { s with ready } })
      (fun host hhost => (h.alert.hosted host hhost).employed) activity
    obtain ⟨rfl, rfl⟩ := Prod.mk.inj (Option.some.inj hturn)
    refine ⟨activity, hmem, ?_, ?_⟩
    · rw [Session.move, if_pos hmem, hready, List.erase_cons_head]
    · refine Nat.lt_of_lt_of_eq hless ?_
      rw [load, load, hready, allTurns_cons]
      dsimp only
      omega

/-- As many turns as there is left to do leave nothing ready. -/
theorem Sound.ready_settleWithin (h : s.Sound) {turns : Nat} (hturns : s.load ≤ turns) :
    (machine.settleWithin turns s).1.ready = [] := by
  induction turns generalizing s with
  | zero =>
    have hready : allTurns s.ready = 0 := by
      rw [load] at hturns
      omega
    cases hactivities : s.ready with
    | nil => exact hactivities
    | cons activity ready =>
      rw [hactivities, allTurns_cons] at hready
      have hturn : 0 < activity.turns := by
        cases activity with
        | host job =>
          cases job with
          | _ => simp [Activity.turns, Job.turns]
        | _ => simp [Activity.turns]
      omega
  | succ turns ih =>
    rw [Machine.settleWithin]
    cases hturn : machine.turn s with
    | none =>
      have hnone : s.turn = none := hturn
      rw [Session.turn] at hnone
      split at hnone
      · rename_i hready
        exact hready
      · cases hnone
    | some next =>
      obtain ⟨t, told⟩ := next
      obtain ⟨activity, -, hmove, hless⟩ := h.turn hturn
      have hnext := h.move (.turn activity)
      rw [hmove] at hnext
      exact ih hnext (by omega)

/-- Whatever is ready, the session settles. -/
theorem Sound.ready_settle (h : s.Sound) : (machine.settle s).1.ready = [] :=
  h.ready_settleWithin s.load_le_turns

end LocalPlay.Session
