import LocalPlay.Proofs.Overlay.Scene
import LocalPlay.Proofs.Splits

/-!
# The queue and the turn of a worker

Workers are found by the number of their seat, and what is done to one of them leaves all others as
they are. A datagram is queued or not, `receive_cases`. What the turn of a worker comes to, to the
last notice, is `Turn`: it has nothing to do, or ends because it was told to, or reads the oldest
datagram of its queue and has the traffic in it routed. If the datagram makes no sense the worker
ends as well, and so does its seat if it is still there. Nothing else is ever read off the
definitions of the two.
-/

namespace LocalPlay.Overlay

open Net Wire

/-- The traffic among packets. -/
def Traffic.ofFrames (frames : List Frame) : List Traffic :=
  frames.filterMap fun frame => Traffic.ofPacket? frame.packet

theorem Registry.removeSeat_eq {r : Registry} {id : Nat} {seat : Seat}
    (hseat : r.seat? id = some seat) :
    r.removeSeat id = { r with seats := r.seats.erase seat } := by
  rw [removeSeat, eraseP_of_find? hseat]

namespace Host

/-- No worker but that of the seat has changed. -/
def OthersAt (host : Host) (seat : Nat) (workers : List Worker) : Prop :=
  workers.filter (·.seat.id ≠ seat) = host.workers.filter (·.seat.id ≠ seat)

/-- The host without a seat and its worker. -/
def vacate (host : Host) (seat : Seat) : Host :=
  { host with
    registry := { host.registry with seats := host.registry.seats.erase seat }
    workers := host.workers.filter (·.seat.id ≠ seat.id) }

/-! ### Workers by their number -/

section Amend

/-! Some change is made to the worker of one seat. -/

variable {seat : Nat} {f : Worker → Worker} (hid : ∀ w, w.seat.id = seat → (f w).seat.id = seat)
include hid

theorem id_amend (w : Worker) : (if w.seat.id = seat then f w else w).seat.id = w.seat.id := by
  split
  · rename_i hw
    rw [hid w hw, hw]
  · rfl

theorem othersAt_amend (host : Host) :
    host.OthersAt seat (host.workers.map fun w => if w.seat.id = seat then f w else w) := by
  have hsame : (fun w : Worker => decide (w.seat.id ≠ seat)) ∘
      (fun w => if w.seat.id = seat then f w else w) = fun w => decide (w.seat.id ≠ seat) := by
    funext w
    rw [Function.comp_apply, id_amend hid]
  rw [OthersAt, List.filter_map, hsame]
  refine (List.map_congr_left fun w hw => ?_).trans (List.map_id _)
  exact if_neg (of_decide_eq_true (List.mem_filter.mp hw).2)

theorem find?_amend (workers : List Worker) :
    (workers.map fun w => if w.seat.id = seat then f w else w).find? (·.seat.id == seat) =
      (workers.find? (·.seat.id == seat)).map f := by
  have hsame : (fun w : Worker => w.seat.id == seat) ∘
      (fun w => if w.seat.id = seat then f w else w) = fun w => w.seat.id == seat := by
    funext w
    rw [Function.comp_apply, id_amend hid]
  rw [List.find?_map, hsame]
  cases hfind : workers.find? (·.seat.id == seat) with
  | none => rfl
  | some worker => rw [Option.map_some, Option.map_some, if_pos (key_of_find? hfind)]

end Amend

theorem othersAt_setWorker (host : Host) {seat : Nat} {worker : Worker}
    (hid : worker.seat.id = seat) : host.OthersAt seat (host.setWorker worker).workers := by
  subst hid
  apply othersAt_amend
  intro w hw
  rfl

theorem find?_setWorker {host : Host} {seat : Nat} {worker old : Worker}
    (hid : worker.seat.id = seat) (hfind : host.workers.find? (·.seat.id == seat) = some old) :
    (host.setWorker worker).workers.find? (·.seat.id == seat) = some worker := by
  subst hid
  rw [setWorker, find?_amend, hfind]
  · rfl
  · intro w hw
    rfl

theorem othersAt_dismiss (host : Host) (seat : Nat) :
    host.OthersAt seat (host.dismiss seat).host.workers := by
  apply othersAt_amend
  intro w hw
  exact hw

theorem find?_dismiss (host : Host) (seat : Nat) :
    (host.dismiss seat).host.workers.find? (·.seat.id == seat) =
      (host.workers.find? (·.seat.id == seat)).map ({ · with dismissed := true }) := by
  apply find?_amend
  intro w hw
  exact hw

/-- Nobody is there to be told. -/
theorem dismiss_vacate (host : Host) (seat : Seat) :
    ((host.vacate seat).dismiss seat.id).host = host.vacate seat := by
  have hnone : (host.vacate seat).workers.map (fun w =>
      if w.seat.id = seat.id then { w with dismissed := true } else w) =
        (host.vacate seat).workers := by
    refine (List.map_congr_left fun w hw => ?_).trans (List.map_id _)
    exact if_neg (of_decide_eq_true (List.mem_filter.mp hw).2)
  rw [dismiss, hnone]

theorem find?_dropWorker (host : Host) (seat : Nat) :
    (host.dropWorker seat).workers.find? (·.seat.id == seat) = none := by
  refine List.find?_eq_none.mpr fun w hw hid => ?_
  exact of_decide_eq_true (List.mem_filter.mp hw).2 (beq_iff_eq.mp hid)

theorem find?_vacate (host : Host) (seat : Seat) :
    (host.vacate seat).workers.find? (·.seat.id == seat.id) = none :=
  host.find?_dropWorker seat.id

theorem dropWorker_setWorker (host : Host) {seat : Nat} {worker : Worker}
    (hid : worker.seat.id = seat) :
    (host.setWorker worker).dropWorker seat = host.dropWorker seat := by
  have hothers : ((host.setWorker worker).workers.filter (·.seat.id ≠ seat)) =
      host.workers.filter (·.seat.id ≠ seat) := host.othersAt_setWorker hid
  rw [dropWorker, hothers]
  rfl

theorem othersAt_dropWorker (host : Host) (seat : Nat) :
    host.OthersAt seat (host.dropWorker seat).workers := by
  rw [OthersAt, dropWorker, List.filter_filter]
  exact List.filter_congr fun w _ => Bool.and_self _

/-! ### Queues -/

/-- What there is after a datagram is queued for the worker of a seat. -/
def queue (host : Host) (seat : Nat) (datagram : Bytes) : Scene :=
  { host := { host with workers := host.workers.map fun w =>
      if w.seat.id = seat then { w with inbox := w.inbox ++ [datagram] } else w }
    notices := [.accepted seat datagram]
    jobs := [.serve seat] }

theorem fst_receive (host : Host) (endpoint : Endpoint) (datagram : Bytes) :
    (host.receive endpoint datagram).1 = (host.registry.seatAt? endpoint).isSome := by
  rw [receive]
  cases host.registry.seatAt? endpoint with
  | none => rfl
  | some seat =>
    dsimp only
    cases host.workers.find? (·.seat.id == seat.id) with
    | none => rfl
    | some worker =>
      dsimp only
      split
      · rfl
      · rfl

/-- A datagram is dropped, or queued for the worker of the seat that it came from. -/
theorem receive_cases (host : Host) (endpoint : Endpoint) (datagram : Bytes) :
    (host.receive endpoint datagram).2 = { host } ∨
    ∃ seat worker, host.registry.seatAt? endpoint = some seat ∧
      host.workers.find? (·.seat.id == seat.id) = some worker ∧
      worker.inbox.length < inboxLimit ∧
      (host.receive endpoint datagram).2 = host.queue seat.id datagram := by
  cases hseat : host.registry.seatAt? endpoint with
  | none =>
    left
    simp only [receive, hseat]
  | some seat =>
    cases hfind : host.workers.find? (·.seat.id == seat.id) with
    | none =>
      left
      simp only [receive, hseat, hfind]
    | some worker =>
      by_cases hroom : worker.inbox.length < inboxLimit
      · refine .inr ⟨seat, worker, rfl, hfind, hroom, ?_⟩
        simp only [receive, hseat, hfind, if_pos hroom, queue]
      · left
        simp only [receive, hseat, hfind, if_neg hroom]

theorem othersAt_queue (host : Host) (seat : Nat) (datagram : Bytes) :
    host.OthersAt seat (host.queue seat datagram).host.workers := by
  apply othersAt_amend
  intro w hw
  exact hw

theorem find?_queue (host : Host) (seat : Nat) (datagram : Bytes) :
    (host.queue seat datagram).host.workers.find? (·.seat.id == seat) =
      (host.workers.find? (·.seat.id == seat)).map
        fun w => { w with inbox := w.inbox ++ [datagram] } := by
  apply find?_amend
  intro w hw
  exact hw

/-! ### Turns -/

/-- What is said when a worker with this number reads a datagram. -/
def forwarding (host : Host) (link : Link) (id : Nat) (worker : Worker) (datagram : Bytes) :
    List Notice :=
  (Traffic.ofFrames (worker.stream.feed datagram).frames).flatMap
    (host.registry.deliveries link (some id) worker.seat.virtualIp)

/-- How the turn of a worker ends, to the last notice. -/
inductive Turn (host : Host) (link : Link) (id : Nat) : Scene → Prop
  | idle : Turn host link id { host }
  | ended {worker : Worker} (hfind : host.workers.find? (·.seat.id == id) = some worker)
      (hdismissed : worker.dismissed = true) : Turn host link id { host := host.dropWorker id }
  | read {worker : Worker} {datagram : Bytes} {inbox : List Bytes}
      (hfind : host.workers.find? (·.seat.id == id) = some worker)
      (hworking : worker.dismissed = false) (hinbox : worker.inbox = datagram :: inbox)
      (herror : (worker.stream.feed datagram).error = none) :
    Turn host link id
      { host := host.setWorker
          { worker with inbox, stream := (worker.stream.feed datagram).next }
        notices := host.forwarding link id worker datagram
        jobs := [.serve id] }
  /-- The seat was given up before its worker was told. -/
  | lost {worker : Worker} {datagram : Bytes} {inbox : List Bytes} {error : WireError}
      (hfind : host.workers.find? (·.seat.id == id) = some worker)
      (hworking : worker.dismissed = false) (hinbox : worker.inbox = datagram :: inbox)
      (herror : (worker.stream.feed datagram).error = some error)
      (hseat : host.registry.seat? id = none) :
    Turn host link id
      { host := host.dropWorker id, notices := host.forwarding link id worker datagram }
  /-- The worker ends and takes its seat with it; the jobs woken find nobody. -/
  | expelled {worker : Worker} {datagram : Bytes} {inbox : List Bytes} {error : WireError}
      {seat : Seat} (hfind : host.workers.find? (·.seat.id == id) = some worker)
      (hworking : worker.dismissed = false) (hinbox : worker.inbox = datagram :: inbox)
      (herror : (worker.stream.feed datagram).error = some error)
      (hseat : host.registry.seat? id = some seat) :
    Turn host link id
      { host := host.vacate seat
        notices := host.forwarding link id worker datagram ++ [.left seat .corrupt,
          .posted .relay (.proxyState ⟨seat.virtualIp, false⟩)
            (link .relay (.proxyState ⟨seat.virtualIp, false⟩))]
        jobs := [.dismiss seat.id] }

theorem turn (host : Host) (link : Link) (id : Nat) : host.Turn link id (host.serve link id) := by
  rw [serve]
  cases hfind : host.workers.find? (·.seat.id == id) with
  | none => exact .idle
  | some worker =>
    have hid := key_of_find? hfind
    dsimp only
    split
    · rename_i hdismissed
      exact .ended hfind hdismissed
    · rename_i hdismissed
      have hworking : worker.dismissed = false := by simpa using hdismissed
      cases hinbox : worker.inbox with
      | nil => exact .idle
      | cons datagram inbox =>
        dsimp only
        rw [Scene.foldl_route_eq]
        cases herror : (worker.stream.feed datagram).error with
        | none => exact .read hfind hworking hinbox herror
        | some error =>
          dsimp only
          rw [dropWorker_setWorker host (by exact hid)]
          cases hseat : host.registry.seat? id with
          | none => exact .lost hfind hworking hinbox herror hseat
          | some seat =>
            obtain rfl : seat.id = id := key_of_find? hseat
            dsimp only
            rw [Scene.expel_eq, dropWorker, setWorker, Registry.removeSeat_eq hseat]
            exact .expelled hfind hworking hinbox herror hseat

/-- Nobody is there to take a turn. -/
theorem serve_vacate (host : Host) (link : Link) (seat : Seat) :
    (host.vacate seat).serve link seat.id = { host := host.vacate seat } := by
  rw [serve, find?_vacate]

end Host

end LocalPlay.Overlay
