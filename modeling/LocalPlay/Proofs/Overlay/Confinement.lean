import LocalPlay.Proofs.Numbering
import LocalPlay.Proofs.Overlay.Move
import LocalPlay.Proofs.Splits

/-!
# What the peer in a seat can bring about

What a seated peer sends is queued for the worker of its seat, and only jobs of this seat ever look
at it. They have traffic forwarded to the seats there are, and nothing else, until the worker finds
something that makes no sense; then the seat is given up and the relay is told so, once, and the
jobs that are left find nothing to do.

`Confined` says that a host differs from an earlier one by no more than this. Datagrams of the peer
and jobs of its seat preserve it, in any order and number. That the seat given up is the peer's own
depends on the numbers of seats being distinct, which every host keeps.
-/

namespace LocalPlay.Overlay

open Net Wire

/-- The job is about this seat. -/
def Job.IsOf (seat : Nat) (job : Job) : Prop :=
  job = .serve seat ∨ job = .dismiss seat

/-- How many turns a job of a seat takes with the jobs that it wakes, apart from what is queued. An
applicant has no seat yet. -/
def Job.weight : Job → Nat
  | consider _ => 0
  | serve _ => 1
  | dismiss _ => 2

def Job.weights (jobs : List Job) : Nat :=
  jobs.foldr (fun job turns => job.weight + turns) 0

/-- At most one job is woken, and it is about this seat. -/
def Sole (seat : Nat) (jobs : List Job) : Prop :=
  jobs = [] ∨ ∃ job, jobs = [job] ∧ job.IsOf seat

namespace Sole

variable {seat : Nat} {jobs : List Job}

theorem nil : Sole seat [] :=
  .inl rfl

theorem singleton {job : Job} (hjob : job.IsOf seat) : Sole seat [job] :=
  .inr ⟨job, rfl, hjob⟩

theorem length_le (h : Sole seat jobs) : jobs.length ≤ 1 := by
  rcases h with rfl | ⟨_, rfl, _⟩
  · exact Nat.zero_le _
  · exact Nat.le_refl _

theorem weight_le (h : Sole seat jobs) : Job.weights jobs ≤ 2 := by
  rcases h with rfl | ⟨_, rfl, rfl | rfl⟩
  · exact Nat.zero_le _
  · exact Nat.le_succ 1
  · exact Nat.le_refl _

theorem isOf (h : Sole seat jobs) : ∀ job ∈ jobs, job.IsOf seat := by
  rcases h with rfl | ⟨_, rfl, hjob⟩
  · exact fun _ => nofun
  · exact List.forall_mem_singleton.mpr hjob

end Sole

/-- What is said when a worker has something to forward: that it came in, that it is to be routed,
and that it was sent to someone who is seated. -/
def Notice.Forwards (registry : Registry) (seat : Nat) : Notice → Prop
  | accepted other _ => other = seat
  | routed other _ _ => other = some seat
  | posted (.peer endpoint) packet _ =>
    (∃ other ∈ registry.seats, other.endpoint = endpoint) ∧
      ∃ traffic : Traffic, packet = traffic.toPacket
  | _ => False

namespace Host

/-- Seats have numbers of their own. -/
def Seated (host : Host) : Prop :=
  Numbered (host.registry.seats.map (·.id)) host.grants

/-- The host was `host`, and only the peer in the seat has had a hand in it since. -/
inductive Confined (host : Host) (seat : Seat) : Host → List Notice → Prop
  | seated {workers : List Worker} {notices : List Notice}
      (hworkers : host.OthersAt seat.id workers)
      (hnotices : ∀ notice ∈ notices, notice.Forwards host.registry seat.id) :
    Confined host seat { host with workers } notices
  | expelled {notices : List Notice} (refusal : Option SendError)
      (hnotices : ∀ notice ∈ notices, notice.Forwards host.registry seat.id) :
    Confined host seat (host.vacate seat)
      (notices ++ [.left seat .corrupt,
        .posted .relay (.proxyState ⟨seat.virtualIp, false⟩) refusal])

/-! ### Numbers of seats -/

theorem seated_of_empty {host : Host} (hempty : host.registry = {}) : host.Seated := by
  rw [Seated, hempty]
  exact .nil _

theorem Seated.move {host : Host} (h : host.Seated) (move : Move) :
    (host.move move).host.Seated := by
  rcases host.move_cases move with hquiet | ⟨_, link, applicant, claim, _, _, hclaim, hscene⟩
  · rw [Seated, hquiet.grants]
    exact h.sublist (hquiet.seats.map _)
  · obtain ⟨hseat, hseats, -⟩ := Registry.claim?_spec hclaim
    rw [hscene]
    show Numbered (claim.registry.seats.map (·.id)) (host.grants + 1)
    rw [hseats, List.map_append, List.map_singleton, hseat]
    exact (h.sublist (List.eraseP_sublist.map _)).issue

theorem Seated.seat?_eq {host : Host} (h : host.Seated) {seat : Seat}
    (hseat : seat ∈ host.registry.seats) : host.registry.seat? seat.id = some seat :=
  h.find?_eq hseat

/-! ### Forwarding -/

theorem exists_seat_of_destination {r : Registry} {dest : UInt32} {endpoint : Endpoint}
    (hmem : endpoint ∈ r.destinations dest) : ∃ seat ∈ r.seats, seat.endpoint = endpoint := by
  rw [Registry.destinations] at hmem
  generalize (if dest = broadcastSentinel then _ else dest) = target at hmem
  split at hmem
  · exact List.mem_map.mp hmem
  · obtain ⟨seat, hfind, rfl⟩ := Option.map_eq_some_iff.mp (Option.mem_toList.mp hmem)
    exact ⟨seat, List.mem_of_find?_eq_some hfind, rfl⟩

theorem forwards_of_mem_deliveries {r : Registry} {link : Link} {seat : Nat} {sender : UInt32}
    {traffic : Traffic} {notice : Notice}
    (hmem : notice ∈ r.deliveries link (some seat) sender traffic) : notice.Forwards r seat := by
  rw [Registry.deliveries, List.mem_cons] at hmem
  rcases hmem with rfl | hmem
  · rfl
  · cases hstamp : traffic.stamp? sender with
    | none => simp [hstamp] at hmem
    | some stamped =>
      rw [hstamp] at hmem
      obtain ⟨endpoint, hdestination, rfl⟩ := List.mem_map.mp hmem
      exact ⟨exists_seat_of_destination hdestination, stamped, rfl⟩

/-! ### Workers -/

/-- A bound for what the worker of the seat still has to do; none if there is no such worker. -/
def effort (host : Host) (seat : Nat) : Nat :=
  match host.workers.find? (·.seat.id == seat) with
  | none => 0
  | some worker => worker.inbox.length + 3

theorem effort_of_find? {host : Host} {seat : Nat} {worker : Worker}
    (hfind : host.workers.find? (·.seat.id == seat) = some worker) :
    host.effort seat = worker.inbox.length + 3 := by
  rw [effort, hfind]

theorem effort_le_backlog (host : Host) (seat : Nat) : host.effort seat ≤ host.backlog := by
  have hworkers (workers : List Worker) {worker : Worker} (hmem : worker ∈ workers) :
      worker.inbox.length + 3 ≤ workers.foldr (fun w jobs => w.inbox.length + 3 + jobs) 0 := by
    induction workers with
    | nil => exact nomatch hmem
    | cons first rest ih =>
      rw [List.foldr_cons]
      rcases List.mem_cons.mp hmem with rfl | hmem
      · exact Nat.le_add_right _ _
      · exact Nat.le_trans (ih hmem) (Nat.le_add_left _ _)
  rw [effort, backlog]
  split
  · exact Nat.zero_le _
  · rename_i worker hfind
    exact Nat.le_trans (hworkers host.workers (List.mem_of_find?_eq_some hfind))
      (Nat.le_add_left _ _)

theorem effort_of_find?_none {host : Host} {seat : Nat}
    (hfind : host.workers.find? (·.seat.id == seat) = none) : host.effort seat = 0 := by
  rw [effort, hfind]

theorem forwards_of_mem_forwarding {host : Host} {link : Link} {id : Nat} {worker : Worker}
    {datagram : Bytes} : ∀ notice ∈ host.forwarding link id worker datagram,
      notice.Forwards host.registry id := by
  intro notice hmem
  obtain ⟨_, _, hmem⟩ := List.mem_flatMap.mp hmem
  exact forwards_of_mem_deliveries hmem

/-- What comes of serving a worker. It has traffic forwarded and comes back if there was any work.
Or what it had to say made no sense: then it ends, and its seat is given up if it is still there. -/
inductive Served (host : Host) (id : Nat) : Scene → Prop
  | forwarded {workers : List Worker} {notices : List Notice} {jobs : List Job}
      (hworkers : host.OthersAt id workers)
      (hnotices : ∀ notice ∈ notices, notice.Forwards host.registry id) (hjobs : Sole id jobs)
      (hless : Host.effort { host with workers } id + Job.weights jobs < host.effort id + 1) :
    Served host id { host := { host with workers }, notices, jobs }
  | expelled {seat : Seat} {notices : List Notice} (refusal : Option SendError)
      (hseat : host.registry.seat? id = some seat)
      (hnotices : ∀ notice ∈ notices, notice.Forwards host.registry id)
      (heffort : 3 ≤ host.effort id) :
    Served host id
      { host := host.vacate seat
        notices := notices ++ [.left seat .corrupt,
          .posted .relay (.proxyState ⟨seat.virtualIp, false⟩) refusal]
        jobs := [.dismiss seat.id] }

theorem served (host : Host) (link : Link) (id : Nat) : host.Served id (host.serve link id) := by
  have hdropped {notices : List Notice}
      (hnotices : ∀ notice ∈ notices, notice.Forwards host.registry id) :
      host.Served id { host := host.dropWorker id, notices } := by
    refine .forwarded (host.othersAt_dropWorker id) hnotices .nil ?_
    have hnone : (host.dropWorker id).effort id = 0 :=
      effort_of_find?_none (host.find?_dropWorker id)
    exact hnone ▸ Nat.succ_pos _
  have hturn := host.turn link id
  generalize host.serve link id = scene at hturn ⊢
  cases hturn with
  | idle => exact .forwarded rfl (fun _ => nofun) .nil (Nat.lt_succ_self _)
  | ended => exact hdropped fun _ => nofun
  | @read worker datagram inbox hfind _ hinbox =>
    let after : Worker := { worker with inbox, stream := (worker.stream.feed datagram).next }
    have hid := key_of_find? hfind
    refine .forwarded (host.othersAt_setWorker hid) forwards_of_mem_forwarding
      (.singleton (.inl rfl)) ?_
    have hfound : (host.setWorker after).workers.find? (·.seat.id == id) = some after :=
      find?_setWorker hid hfind
    have hafter := effort_of_find? hfound
    rw [effort_of_find? hfind, hinbox]
    exact Nat.succ_lt_succ (Nat.lt_of_le_of_lt (Nat.le_of_eq hafter) (by simp [after]))
  | lost => exact hdropped forwards_of_mem_forwarding
  | expelled hfind _ _ _ hseat =>
    refine .expelled _ hseat forwards_of_mem_forwarding ?_
    rw [effort_of_find? hfind]
    exact Nat.le_add_left _ _

/-! ### Datagrams and jobs -/

variable {host h : Host} {seat : Seat} {notices : List Notice}

/-- A scene after `notices`: still only the peer has had a hand in it, at most one job of the seat
is woken, and less than `bound` remains to be done. -/
structure Continues (host : Host) (seat : Seat) (notices : List Notice) (bound : Nat)
    (scene : Scene) : Prop where
  confined : host.Confined seat scene.host (notices ++ scene.notices)
  sole : Sole seat.id scene.jobs
  less : scene.host.effort seat.id + Job.weights scene.jobs < bound

namespace Confined

theorem refl (host : Host) (seat : Seat) : Confined host seat host [] :=
  .seated rfl fun _ => nofun

/-- Nobody is told an address. -/
theorem not_assigned (hconfined : Confined host seat h notices) (endpoint : Endpoint)
    (config : OverlayConfig) (refusal : Option SendError) :
    .posted (.peer endpoint) (.overlayConfig config) refusal ∉ notices := by
  have hforwards {notices : List Notice}
      (hnotices : ∀ notice ∈ notices, notice.Forwards host.registry seat.id) :
      .posted (.peer endpoint) (.overlayConfig config) refusal ∉ notices := by
    intro hmem
    obtain ⟨-, traffic, htraffic⟩ := hnotices _ hmem
    cases traffic with
    | _ => exact nomatch htraffic
  cases hconfined with
  | seated _ hnotices => exact hforwards hnotices
  | expelled _ hnotices => simp [hforwards hnotices]

/-- The peer sends something. -/
theorem receive (hseat : host.registry.seatAt? seat.endpoint = some seat) (datagram : Bytes) :
    Confined host seat (host.receive seat.endpoint datagram).2.host
        (host.receive seat.endpoint datagram).2.notices ∧
      Sole seat.id (host.receive seat.endpoint datagram).2.jobs := by
  rcases host.receive_cases seat.endpoint datagram with hdropped | ⟨other, _, hother, _, _, hqueued⟩
  · rw [hdropped]
    exact ⟨.refl host seat, .nil⟩
  · obtain rfl : seat = other := Option.some.inj (hseat.symm.trans hother)
    rw [hqueued]
    refine ⟨.seated (host.othersAt_queue seat.id datagram) ?_, .singleton (.inl rfl)⟩
    exact List.forall_mem_singleton.mpr rfl

/-- The worker of the seat is served. -/
theorem serve (hconfined : Confined host seat h notices) (hseated : host.Seated)
    (hseat : seat ∈ host.registry.seats) (link : Link) :
    host.Continues seat notices (h.effort seat.id + 1) (h.serve link seat.id) := by
  cases hconfined with
  | @seated workers notices hworkers hnotices =>
    have hall {more : List Notice} (hmore : ∀ notice ∈ more,
        notice.Forwards host.registry seat.id) :
        ∀ notice ∈ notices ++ more, notice.Forwards host.registry seat.id := fun notice hmem =>
      (List.mem_append.mp hmem).elim (hnotices notice) (hmore notice)
    have hserved := ({ host with workers } : Host).served link seat.id
    generalize Host.serve _ link seat.id = scene at hserved ⊢
    cases hserved with
    | forwarded hnext hmore hjobs hless =>
      exact ⟨.seated (hnext.trans hworkers) (hall hmore), hjobs, hless⟩
    | @expelled other more refusal hother hmore heffort =>
      -- The seat is found by its number, and numbers are distinct: it is the peer's own.
      obtain rfl : seat = other := Option.some.inj ((hseated.seat?_eq hseat).symm.trans hother)
      have hvacate : ({ host with workers } : Host).vacate seat = host.vacate seat := by
        have hothers : workers.filter (·.seat.id ≠ seat.id) =
            host.workers.filter (·.seat.id ≠ seat.id) := hworkers
        rw [vacate, vacate, hothers]
      refine ⟨?_, .singleton (.inr rfl), ?_⟩
      · rw [← List.append_assoc, hvacate]
        exact .expelled refusal (hall hmore)
      · dsimp only
        rw [effort_of_find?_none (find?_vacate _ _)]
        exact Nat.succ_lt_succ (Nat.lt_of_lt_of_le Nat.one_lt_two (Nat.le_of_succ_le heffort))
  | expelled refusal hnotices =>
    -- The worker is gone: a job that is left over finds nothing to do.
    rw [serve_vacate]
    refine ⟨?_, .nil, Nat.lt_succ_self _⟩
    rw [List.append_nil]
    exact .expelled refusal hnotices

/-- The worker of the seat is told to end. -/
theorem dismiss (hconfined : Confined host seat h notices) :
    host.Continues seat notices (h.effort seat.id + 2) (h.dismiss seat.id) := by
  have heffort : (h.dismiss seat.id).host.effort seat.id = h.effort seat.id := by
    rw [effort, effort, find?_dismiss]
    cases h.workers.find? (·.seat.id == seat.id) with
    | none => rfl
    | some worker => rfl
  refine ⟨?_, .singleton (.inl rfl), ?_⟩
  · show Confined host seat (h.dismiss seat.id).host (notices ++ [])
    rw [List.append_nil]
    cases hconfined with
    | @seated workers _ hworkers hnotices =>
      have hdismissed := ({ host with workers } : Host).othersAt_dismiss seat.id
      exact .seated (hdismissed.trans hworkers) hnotices
    | expelled refusal hnotices =>
      rw [dismiss_vacate]
      exact .expelled refusal hnotices
  · rw [heffort]
    exact Nat.lt_succ_self _

/-- A job of the seat gets its turn. -/
theorem perform (hconfined : Confined host seat h notices) (hseated : host.Seated)
    (hseat : seat ∈ host.registry.seats) (now : Nat) (link : Link) {job : Job}
    (hjob : job.IsOf seat.id) :
    host.Continues seat notices (h.effort seat.id + job.weight) (h.perform now link job) := by
  rcases hjob with rfl | rfl
  · exact hconfined.serve hseated hseat link
  · exact hconfined.dismiss

end Confined

end Host

end LocalPlay.Overlay
