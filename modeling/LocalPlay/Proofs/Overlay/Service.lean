import LocalPlay.Overlay.Service
import LocalPlay.Proofs.Overlay.Confinement
import LocalPlay.Proofs.Overlay.Ledger

/-!
# Runs of a service

A service makes moves of its host: calls when it is asked to, and jobs that wait for their turn, in
any order. Between them the link may change. Time passes only while nothing is ready, and never past
the end of an applicant's time. These are the `Run`s. A host is asked, settled and taken through
time by functions of the service, which are runs of this kind (`request_reaches`, `settle_reaches`,
`advance_reaches`).

To settle takes no more turns than the service allows for. Every turn leaves less to do: `debt`
counts what is ready, with all that can follow from it, and that it falls rests on every worker
being told apart by the number of its seat.
-/

namespace LocalPlay.Overlay

open Net Wire Timing

/-- A call that finds this clock and this link. -/
def Host.Move.IsCall (now : Nat) (link : Link) : Host.Move → Prop
  | apply time _ _ => time = now
  | route through _ _ => through = link
  | unregister through _ => through = link
  | perform _ _ _ => False
  | _ => True

namespace Service

/-- A job that is ready has its turn. -/
def after (s : Service) (job : Job) : Service :=
  ({ s with ready := s.ready.erase job }).adopt (s.host.perform s.clock s.link job)

/-- A service has come so far, and its host has made these moves. -/
inductive Run (authWait : Nat) : List Host.Move → Service → Prop
  | start (clock : Nat) (faults : Faults) : Run authWait [] { clock, faults, host := { authWait } }
  | call {moves : List Host.Move} {s : Service} (h : Run authWait moves s) (move : Host.Move)
      (hcall : move.IsCall s.clock s.link) :
    Run authWait (moves ++ [move]) (s.adopt (s.host.move move))
  | fault {moves : List Host.Move} {s : Service} (h : Run authWait moves s) (faults : Faults) :
    Run authWait moves { s with faults }
  | turn {moves : List Host.Move} {s : Service} (h : Run authWait moves s) (job : Job)
      (hready : job ∈ s.ready) :
    Run authWait (moves ++ [.perform s.clock s.link job]) (s.after job)
  /-- Nothing is ready, and nobody's time is over before the clock stops. -/
  | pass {moves : List Host.Move} {s : Service} (h : Run authWait moves s) (time : Nat)
      (hready : s.ready = []) (hclock : s.clock ≤ time)
      (hdue : ∀ applicant ∈ s.host.applicants, time ≤ applicant.deadline) :
    Run authWait moves (machine.reach time s)

/-- From a run by these moves the service comes to `t`, and this is told on the way. -/
def Reaches (authWait : Nat) (moves : List Host.Move) (told : List Notice) (t : Service) : Prop :=
  ∃ more, Run authWait (moves ++ more) t ∧
    (Chronicle.ofMoves authWait (moves ++ more)).notices =
      (Chronicle.ofMoves authWait moves).notices ++ told

variable {authWait : Nat} {moves : List Host.Move} {s t : Service}

theorem Run.host_eq (h : Run authWait moves s) :
    s.host = (Chronicle.ofMoves authWait moves).host := by
  induction h with
  | start => rfl
  | call _ _ _ ih =>
    rw [Chronicle.host_concat, ← ih]
    rfl
  | fault _ _ ih => exact ih
  | turn _ _ _ ih =>
    rw [Chronicle.host_concat, ← ih]
    rfl
  | pass _ _ _ _ _ ih => exact ih

theorem mem_enqueue {ready : List Job} {job other : Job} :
    other ∈ enqueue ready job ↔ other ∈ ready ∨ other = job := by
  rw [enqueue]
  split
  · rename_i hmem
    constructor
    · exact .inl
    · rintro (hother | rfl)
      · exact hother
      · exact hmem
  · simp

theorem mem_foldl_enqueue {ready jobs : List Job} {job : Job} :
    job ∈ jobs.foldl enqueue ready ↔ job ∈ ready ∨ job ∈ jobs := by
  induction jobs generalizing ready with
  | nil => simp
  | cons first jobs ih => rw [List.foldl_cons, ih, mem_enqueue, List.mem_cons, or_assoc]

/-- A job is ready if it was or has been woken. -/
theorem mem_ready_adopt {scene : Scene} {job : Job} :
    job ∈ (s.adopt scene).ready ↔ job ∈ s.ready ∨ job ∈ scene.jobs :=
  mem_foldl_enqueue

/-! ### What a service does -/

namespace Reaches

theorem refl (h : Run authWait moves s) : Reaches authWait moves [] s :=
  ⟨[], by simpa using h, by simp⟩

theorem trans {told more : List Notice} (h : Reaches authWait moves told s)
    (hmore : ∀ {moves}, Run authWait moves s → Reaches authWait moves more t) :
    Reaches authWait moves (told ++ more) t := by
  obtain ⟨first, hrun, hfirst⟩ := h
  obtain ⟨second, hlast, hsecond⟩ := hmore hrun
  refine ⟨first ++ second, by simpa using hlast, ?_⟩
  rw [← List.append_assoc, hsecond, hfirst, List.append_assoc]

end Reaches

theorem Run.call_reaches (h : Run authWait moves s) (move : Host.Move)
    (hcall : move.IsCall s.clock s.link) :
    Reaches authWait moves (s.host.move move).notices (s.adopt (s.host.move move)) := by
  refine ⟨[move], h.call move hcall, ?_⟩
  rw [Chronicle.notices_concat, h.host_eq]

theorem Run.receiveAll_reaches (h : Run authWait moves s) (endpoint : Endpoint)
    (datagrams : List Bytes) :
    Reaches authWait moves (s.receiveAll endpoint datagrams).2.2
      (s.receiveAll endpoint datagrams).2.1 := by
  induction datagrams generalizing moves s with
  | nil => exact .refl h
  | cons datagram rest ih =>
    exact (h.call_reaches (.receive endpoint datagram) trivial).trans fun hnext => ih hnext

/-- What is asked of a service are calls of its host, or the link changes. -/
theorem request_reaches (h : Run authWait moves s) (request : Request) :
    Reaches authWait moves (s.request request).2.2 (s.request request).2.1 := by
  cases request with
  | addToken token => exact h.call_reaches (.addToken token) trivial
  | apply endpoint offer => exact h.call_reaches (.apply s.clock endpoint offer) rfl
  | applyPresence presence => exact h.call_reaches (.applyPresence presence) trivial
  | receive endpoint datagrams => exact h.receiveAll_reaches endpoint datagrams
  | route sender traffic => exact h.call_reaches (.route s.link sender traffic) rfl
  | unregister endpoint => exact h.call_reaches (.unregister s.link endpoint) rfl
  | shutdown => exact h.call_reaches .shutdown trivial
  | setFault target error => exact .refl (h.fault _)

/-- The next turn is that of a job that is ready. -/
theorem turn_eq_some {told : List Notice} (hturn : s.turn = some (t, told)) :
    ∃ job ∈ s.ready, t = s.after job ∧ told = (s.host.perform s.clock s.link job).notices ∧
      s.ready = job :: s.ready.erase job := by
  rw [turn] at hturn
  split at hturn
  · exact nomatch hturn
  · rename_i job ready hready
    obtain ⟨rfl, rfl⟩ := Prod.mk.inj (Option.some.inj hturn)
    refine ⟨job, ?_, ?_, rfl, ?_⟩
    · rw [hready]
      exact List.mem_cons_self
    · rw [after, hready, List.erase_cons_head]
    · rw [hready, List.erase_cons_head]

theorem turn_eq_none (hturn : s.turn = none) : s.ready = [] := by
  rw [turn] at hturn
  split at hturn
  · assumption
  · exact nomatch hturn

theorem settleWithin_reaches (h : Run authWait moves s) (turns : Nat) :
    Reaches authWait moves (machine.settleWithin turns s).2 (machine.settleWithin turns s).1 := by
  induction turns generalizing moves s with
  | zero => exact .refl h
  | succ turns ih =>
    rw [Machine.settleWithin]
    cases hturn : machine.turn s with
    | none => exact .refl h
    | some next =>
      obtain ⟨t, told⟩ := next
      obtain ⟨job, hready, rfl, rfl, -⟩ := turn_eq_some hturn
      have hfirst : Reaches authWait moves (s.host.perform s.clock s.link job).notices
          (s.after job) := by
        refine ⟨[.perform s.clock s.link job], h.turn job hready, ?_⟩
        rw [Chronicle.notices_concat, h.host_eq]
        rfl
      exact hfirst.trans fun hnext => ih hnext

end Service

/-! ### How long it takes to settle -/

/-- How many turns a job takes with the jobs that it wakes, apart from what is queued and from what
comes of letting an applicant in. -/
def Job.turns : Job → Nat
  | consider _ => 2
  | serve _ => 1
  | dismiss _ => 2

def Job.allTurns (jobs : List Job) : Nat :=
  jobs.foldr (fun job turns => job.turns + turns) 0

@[simp] theorem Job.allTurns_nil : allTurns [] = 0 :=
  rfl

@[simp] theorem Job.allTurns_cons (job : Job) (jobs : List Job) :
    allTurns (job :: jobs) = job.turns + allTurns jobs :=
  rfl

@[simp] theorem Job.allTurns_append (jobs more : List Job) :
    allTurns (jobs ++ more) = allTurns jobs + allTurns more := by
  induction jobs with
  | nil => simp
  | cons job jobs ih => simp [ih, Nat.add_assoc]

theorem Job.turns_eq_weight {seat : Nat} {job : Job} (hjob : job.IsOf seat) :
    job.turns = job.weight := by
  rcases hjob with rfl | rfl
  · rfl
  · rfl

namespace Host

/-- The workers are told apart by the numbers of their seats. -/
def Employed (host : Host) : Prop :=
  Numbered (host.workers.map (·.seat.id)) host.grants

/-- What the workers still have to do at most. -/
def workload (workers : List Worker) : Nat :=
  workers.foldr (fun w jobs => w.inbox.length + 3 + jobs) 0

theorem backlog_eq (host : Host) :
    host.backlog = host.applicants.length + workload host.workers :=
  rfl

theorem workload_append (workers more : List Worker) :
    workload (workers ++ more) = workload workers + workload more := by
  induction workers with
  | nil => simp [workload]
  | cons worker workers ih =>
    simp only [workload, List.cons_append, List.foldr_cons] at ih ⊢
    omega

theorem employed_map {host : Host} (h : host.Employed) {seat : Nat} {f : Worker → Worker}
    (hid : ∀ w, w.seat.id = seat → (f w).seat.id = seat) :
    Numbered ((host.workers.map fun w => if w.seat.id = seat then f w else w).map (·.seat.id))
      host.grants := by
  rw [List.map_map]
  have hsame : (fun w : Worker => w.seat.id) ∘ (fun w => if w.seat.id = seat then f w else w) =
      fun w => w.seat.id := funext (id_amend hid)
  rw [hsame]
  exact h

theorem employed_filter {host : Host} (h : host.Employed) (p : Worker → Bool) :
    Numbered ((host.workers.filter p).map (·.seat.id)) host.grants :=
  h.sublist (List.filter_sublist.map _)

theorem Employed.serve {host : Host} (h : host.Employed) (link : Link) (id : Nat) :
    (host.serve link id).host.Employed := by
  have hturn := host.turn link id
  generalize host.serve link id = scene at hturn ⊢
  cases hturn with
  | idle => exact h
  | ended => exact employed_filter h _
  | @read worker datagram inbox hfind =>
    have hid := key_of_find? hfind
    subst hid
    exact employed_map (f := fun _ => { worker with inbox, stream := _ }) h fun _ _ => rfl
  | lost => exact employed_filter h _
  | expelled => exact employed_filter h _

theorem Employed.move {host : Host} (h : host.Employed) (move : Move) :
    (host.move move).host.Employed := by
  cases move with
  | addToken => exact h
  | applyPresence presence =>
    show (host.applyPresence presence).host.Employed
    rw [applyPresence]
    split
    · exact h
    · rw [Scene.closeAll_eq]
      exact h
  | apply => exact h
  | receive endpoint datagram =>
    show (host.receive endpoint datagram).2.host.Employed
    rcases host.receive_cases endpoint datagram with hdropped | ⟨seat, _, _, _, _, hqueued⟩
    · rw [hdropped]
      exact h
    · rw [hqueued]
      exact employed_map h fun _ hw => hw
  | route link sender traffic =>
    show (host.route link sender traffic).host.Employed
    rw [route, Scene.route_eq]
    exact h
  | unregister link endpoint =>
    show (host.unregister link endpoint).2.host.Employed
    rw [unregister]
    cases host.registry.seatAt? endpoint with
    | none => exact h
    | some seat =>
      dsimp only
      rw [Scene.expel_eq]
      exact h
  | shutdown =>
    show host.shutdown.host.Employed
    rw [shutdown, Scene.closeAll_eq]
    exact h
  | perform now link job =>
    cases job with
    | serve id => exact h.serve link id
    | dismiss id => exact employed_map h fun _ hw => hw
    | consider id =>
      show (host.consider now link id).host.Employed
      rcases host.consider_cases now link id with
        ⟨hsame, -⟩ | ⟨_, _, _, _, hscene⟩ | ⟨applicant, claim, _, hclaim, hscene⟩
      · rw [hsame]
        exact h
      · rw [hscene]
        exact h
      · rw [hscene]
        show Numbered ((host.workers ++ [({ seat := claim.seat } : Worker)]).map (·.seat.id))
          (host.grants + 1)
        rw [List.map_append, List.map_singleton, Registry.id_of_claim? hclaim]
        exact h.issue

/-- The worker of one seat has its own part of what there is to do. -/
theorem workload_eq {host : Host} (h : host.Employed) (seat : Nat) :
    workload host.workers =
      host.effort seat + workload (host.workers.filter (·.seat.id ≠ seat)) := by
  have hnodup := h.nodup
  rw [effort]
  generalize host.workers = workers at hnodup
  induction workers with
  | nil => rfl
  | cons worker workers ih =>
    rw [List.map_cons, List.nodup_cons] at hnodup
    by_cases hid : worker.seat.id = seat
    · have hothers : workers.filter (·.seat.id ≠ seat) = workers := by
        refine List.filter_eq_self.mpr fun other hother => decide_eq_true ?_
        rintro hsame
        exact hnodup.1 (List.mem_map.mpr ⟨other, hother, hsame.trans hid.symm⟩)
      rw [List.find?_cons_of_pos (by simp [hid]), List.filter_cons_of_neg (by simp [hid]), hothers]
      rfl
    · rw [List.find?_cons_of_neg (by simp [hid]), List.filter_cons_of_pos (by simp [hid])]
      simp only [workload, List.foldr_cons] at ih ⊢
      rw [ih hnodup.2]
      omega

theorem effort_dismiss (host : Host) (seat : Nat) :
    (host.dismiss seat).host.effort seat = host.effort seat := by
  rw [effort, effort, find?_dismiss]
  cases host.workers.find? (·.seat.id == seat) with
  | none => rfl
  | some worker => rfl

/-- Only the worker of one seat has more or less to do than before. -/
theorem workload_of_othersAt {host next : Host} (h : host.Employed) (hnext : next.Employed)
    {seat : Nat} (hothers : host.OthersAt seat next.workers) :
    workload next.workers + host.effort seat = workload host.workers + next.effort seat := by
  rw [workload_eq h seat, workload_eq hnext seat, hothers]
  omega

theorem length_dropApplicant {host : Host} {applicant : Applicant}
    (hmem : applicant ∈ host.applicants) :
    (host.dropApplicant applicant.id).applicants.length < host.applicants.length :=
  List.length_filter_lt_length_iff_exists.mpr ⟨applicant, hmem, by simp⟩

/-- What there is to do at a host: an applicant may turn into a worker and a seat to close. -/
def work (host : Host) : Nat :=
  3 * host.applicants.length + host.backlog

theorem work_consider (host : Host) (now : Nat) (link : Link) (id : Nat) :
    (host.consider now link id).host.work +
      Job.allTurns (host.consider now link id).jobs < host.work + 2 := by
  rcases host.consider_cases now link id with
    ⟨hsame, -⟩ | ⟨_, _, _, _, hscene⟩ | ⟨applicant, claim, hfind, _, hscene⟩
  · simp [hsame]
  · have hle : (host.dropApplicant id).applicants.length ≤ host.applicants.length :=
      List.length_filter_le ..
    have hworkers : (host.dropApplicant id).workers = host.workers := rfl
    simp only [hscene, work, backlog_eq, hworkers, Job.allTurns_nil]
    omega
  · obtain ⟨hmem, rfl⟩ := mem_of_find? hfind
    have hless := length_dropApplicant hmem
    have hworkload : workload (host.workers ++ [{ seat := claim.seat }]) =
        workload host.workers + 3 := workload_append ..
    have hjobs : Job.allTurns (claim.replaced.toList.map fun seat => Job.dismiss seat.id) ≤
        2 := by
      cases claim.replaced with
      | none => simp
      | some seat => simp [Job.turns]
    simp only [hscene, letIn, work, backlog_eq, hworkload]
    omega

theorem work_serve {host : Host} (h : host.Employed) (link : Link) (id : Nat) :
    (host.serve link id).host.work + Job.allTurns (host.serve link id).jobs < host.work + 1 := by
  have hserved := host.served link id
  have hnext := h.serve link id
  generalize host.serve link id = scene at hserved hnext ⊢
  cases hserved with
  | @forwarded workers notices jobs hothers _ hjobs hless =>
    have hworkload := workload_of_othersAt h hnext hothers
    have hturns : Job.allTurns jobs = Job.weights jobs := by
      rcases hjobs with rfl | ⟨job, rfl, hjob⟩
      · rfl
      · simp [Job.turns_eq_weight hjob, Job.weights]
    simp only [work, backlog_eq, hturns] at hworkload ⊢
    omega
  | @expelled seat notices _ hseat _ heffort =>
    obtain rfl : seat.id = id := key_of_find? hseat
    have hworkload := workload_of_othersAt h hnext (host.othersAt_dropWorker seat.id)
    have hnone : (host.vacate seat).effort seat.id = 0 :=
      effort_of_find?_none (host.find?_vacate seat)
    have happlicants : (host.vacate seat).applicants = host.applicants := rfl
    simp only [work, backlog_eq, hnone, happlicants, Job.allTurns_cons,
      Job.allTurns_nil, Job.turns] at hworkload ⊢
    omega

theorem work_dismiss {host : Host} (h : host.Employed) (id : Nat) :
    (host.dismiss id).host.work = host.work := by
  have hnext : (host.dismiss id).host.Employed := employed_map h fun _ hw => hw
  have hworkload := workload_of_othersAt h hnext (host.othersAt_dismiss id)
  rw [effort_dismiss] at hworkload
  have happlicants : (host.dismiss id).host.applicants = host.applicants := rfl
  rw [work, work, backlog_eq, backlog_eq, happlicants]
  omega

/-- A job leaves less to do than there was with it. -/
theorem work_perform {host : Host} (h : host.Employed) (now : Nat) (link : Link) (job : Job) :
    (host.perform now link job).host.work +
      Job.allTurns (host.perform now link job).jobs < host.work + job.turns := by
  cases job with
  | consider id => exact host.work_consider now link id
  | serve id => exact work_serve h link id
  | dismiss id =>
    show (host.dismiss id).host.work + 1 < host.work + 2
    rw [work_dismiss h]
    omega

end Host

namespace Service

variable {authWait : Nat} {moves : List Host.Move} {s : Service}

/-- What there is to do at the host and in the queue. -/
def debt (s : Service) : Nat :=
  s.host.work + Job.allTurns s.ready

theorem debt_le_turns (s : Service) : s.debt ≤ machine.turns s := by
  have hready : Job.allTurns s.ready ≤ 2 * s.ready.length := by
    induction s.ready with
    | nil => simp
    | cons job ready ih =>
      have hjob : job.turns ≤ 2 := by cases job <;> simp [Job.turns]
      simp only [Job.allTurns_cons, List.length_cons]
      omega
  have hbacklog := s.host.backlog_eq
  show s.host.work + _ ≤ 4 * (s.ready.length + s.host.backlog) + 4
  rw [Host.work]
  omega

theorem allTurns_enqueue_le (ready : List Job) (job : Job) :
    Job.allTurns (enqueue ready job) ≤ Job.allTurns ready + job.turns := by
  rw [enqueue]
  split
  · omega
  · simp

theorem allTurns_foldl_enqueue_le (ready jobs : List Job) :
    Job.allTurns (jobs.foldl enqueue ready) ≤ Job.allTurns ready + Job.allTurns jobs := by
  induction jobs generalizing ready with
  | nil => simp
  | cons job jobs ih =>
    have hfirst := allTurns_enqueue_le ready job
    have hrest := ih (enqueue ready job)
    rw [List.foldl_cons, Job.allTurns_cons]
    omega

theorem debt_after (hemployed : s.host.Employed) {job : Job}
    (hready : s.ready = job :: s.ready.erase job) : (s.after job).debt < s.debt := by
  have hless := Host.work_perform hemployed s.clock s.link job
  have hqueue := allTurns_foldl_enqueue_le (s.ready.erase job)
    (s.host.perform s.clock s.link job).jobs
  have hqueued : Job.allTurns s.ready = job.turns + Job.allTurns (s.ready.erase job) := by
    rw [hready, List.erase_cons_head, Job.allTurns_cons]
  show (s.host.perform s.clock s.link job).host.work + _ < s.host.work + _
  rw [hqueued]
  simp only [after, adopt]
  omega

theorem Run.employed (h : Run authWait moves s) : s.host.Employed := by
  induction h with
  | start => exact .nil 0
  | call _ _ _ ih => exact ih.move _
  | fault _ _ ih => exact ih
  | turn _ _ _ ih => exact ih.move (.perform _ _ _)
  | pass _ _ _ _ _ ih => exact ih

/-- Turns that are worth the debt leave nothing ready. -/
theorem ready_settleWithin (hemployed : s.host.Employed) {turns : Nat} (hturns : s.debt ≤ turns) :
    (machine.settleWithin turns s).1.ready = [] := by
  induction turns generalizing s with
  | zero =>
    have hready : Job.allTurns s.ready = 0 := by
      rw [debt] at hturns
      omega
    cases hjobs : s.ready with
    | nil => exact hjobs
    | cons job ready =>
      rw [hjobs, Job.allTurns_cons] at hready
      have hjob : 0 < job.turns := by cases job <;> simp [Job.turns]
      omega
  | succ turns ih =>
    rw [Machine.settleWithin]
    cases hturn : machine.turn s with
    | none => exact turn_eq_none hturn
    | some next =>
      obtain ⟨t, told⟩ := next
      obtain ⟨job, -, rfl, -, hready⟩ := turn_eq_some hturn
      have hless := debt_after hemployed hready
      exact ih (hemployed.move (.perform s.clock s.link job)) (by omega)

/-- Whatever a service has before it, it settles, and nothing is ready then. -/
theorem settle_reaches (h : Run authWait moves s) :
    Reaches authWait moves (machine.settle s).2 (machine.settle s).1 ∧
      (machine.settle s).1.ready = [] :=
  ⟨settleWithin_reaches h _, ready_settleWithin h.employed s.debt_le_turns⟩

end Service

end LocalPlay.Overlay
