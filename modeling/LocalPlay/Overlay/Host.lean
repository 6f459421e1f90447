import LocalPlay.Overlay.Link
import LocalPlay.Overlay.Registry
import LocalPlay.Wire.Stream

/-!
# Proxy hosts

The node that owns a network may host a proxy for it. The relay tells the host which tokens to
expect; peers apply with a token, wait for it if it has not arrived yet, and are answered with their
address. What a seated peer sends is queued for a worker of its own, reassembled, and routed to the
other seats by virtual address.

A host is changed by calls and by jobs. A call does what can be done at once and names the jobs it
woke, in order; whoever runs the host runs these jobs later, one at a time and in any order. A job
that finds nothing to do changes nothing. Both return a `Scene`: the host afterwards, what happened
in order, and the jobs woken.

Closing a seat does not wait for its worker. The worker is dismissed by a job, and may route what it
has queued until it sees that.
-/

namespace LocalPlay.Overlay

open Net Wire

/-- How many datagrams wait for a worker at most; more are dropped. -/
def inboxLimit : Nat := 4096

/-- A peer that waits to be let in. -/
structure Applicant where
  id : Nat
  endpoint : Endpoint
  presented : Block 16
  deadline : Nat
  deriving DecidableEq

/-- Reads what a seated peer sends. -/
structure Worker where
  seat : Seat
  inbox : List Bytes := []
  stream : Reassembly := .empty
  dismissed : Bool := false
  deriving DecidableEq

/-- Work that waits for its turn. -/
inductive Job where
  /-- An applicant looks for its token. -/
  | consider (applicant : Nat)
  /-- A worker looks at its queue. -/
  | serve (seat : Nat)
  /-- A worker is told to end. -/
  | dismiss (seat : Nat)
  deriving DecidableEq, Repr

/-- Why a seat was given up. -/
inductive Departure where
  /-- The relay said so. -/
  | announced
  /-- The endpoint sat down again. -/
  | replaced
  | unregistered
  /-- What the peer sent made no sense. -/
  | corrupt
  | shutdown
  deriving DecidableEq, Repr

/-- What happened at a host. -/
inductive Notice where
  /-- A packet was handed to the link, which may have refused it. -/
  | posted (target : Target) (packet : Packet) (refusal : Option SendError)
  | admitted (applicant : Nat) (token : ProxyToken) (seat : Seat)
  | decided (applicant : Nat) (result : Except ProxyError OverlayConfig)
  | tokenDropped (token : ProxyToken)
  | left (seat : Seat) (why : Departure)
  /-- A datagram was queued for a worker. -/
  | accepted (seat : Nat) (datagram : Bytes)
  /-- A worker, or a caller if there is no seat, had traffic routed. -/
  | routed (seat : Option Nat) (sender : UInt32) (traffic : Traffic)

structure Host where
  /-- How long an applicant waits for its token. -/
  authWait : Nat
  registry : Registry := {}
  applicants : List Applicant := []
  workers : List Worker := []
  /-- Applicants so far. -/
  applications : Nat := 0
  /-- Seats granted so far. -/
  grants : Nat := 0
  deriving DecidableEq

structure Scene where
  host : Host
  notices : List Notice := []
  jobs : List Job := []

namespace Scene

def tell (s : Scene) (notice : Notice) : Scene :=
  { s with notices := s.notices ++ [notice] }

def wake (s : Scene) (job : Job) : Scene :=
  { s with jobs := s.jobs ++ [job] }

def setRegistry (s : Scene) (registry : Registry) : Scene :=
  { s with host := { s.host with registry } }

def post (s : Scene) (link : Link) (target : Target) (packet : Packet) : Scene :=
  s.tell (.posted target packet (link target packet))

/-- The seat is no longer in the registry: its worker is to be dismissed. -/
def close (s : Scene) (why : Departure) (seat : Seat) : Scene :=
  (s.tell (.left seat why)).wake (.dismiss seat.id)

def closeAll (s : Scene) (why : Departure) (seats : List Seat) : Scene :=
  seats.foldl (fun s seat => s.close why seat) s

/-- Stamps traffic with its sender and hands it to the link for every destination. -/
def route (s : Scene) (link : Link) (seat : Option Nat) (sender : UInt32) (traffic : Traffic) : Scene :=
  let s := s.tell (.routed seat sender traffic)
  match traffic.stamp? sender with
  | none => s
  | some traffic =>
    (s.host.registry.destinations traffic.addressing.dest).foldl
      (fun s endpoint => s.post link (.peer endpoint) traffic.toPacket) s

/-- Takes a seat out of the registry and tells the relay that its address is gone. -/
def expel (s : Scene) (link : Link) (why : Departure) (seat : Seat) : Scene :=
  ((s.setRegistry (s.host.registry.removeSeat seat.id)).close why seat).post link .relay
    (.proxyState ⟨seat.virtualIp, false⟩)

end Scene

namespace Host

/-! ## Calls -/

/-- The relay issued a token: everyone who waits looks again. -/
def addToken (host : Host) (token : ProxyToken) : Scene :=
  { host := { host with registry := { host.registry with tokens := host.registry.tokens ++ [token] } }
    jobs := host.applicants.map (.consider ·.id) }

/-- The relay says that a virtual address came or left. Tokens and seats of one that left are
dropped, without telling the relay back. -/
def applyPresence (host : Host) (presence : ProxyPresence) : Scene :=
  if presence.present then
    { host }
  else
    let gone (ip : UInt32) : Bool := ip == presence.ip
    let registry := host.registry
    let scene : Scene :=
      { host := { host with registry :=
          { registry with
            tokens := registry.tokens.filter (!gone ·.virtualIp)
            seats := registry.seats.filter (!gone ·.virtualIp) } }
        notices := (registry.tokens.filter (gone ·.virtualIp)).map .tokenDropped }
    scene.closeAll .announced (registry.seats.filter (gone ·.virtualIp))

/-- A peer asks for a seat; whether it gets one is a job's decision. -/
def apply (host : Host) (now : Nat) (endpoint : Endpoint) (offer : ProxyOffer) : Scene :=
  let applicant : Applicant := ⟨host.applications, endpoint, offer.token, now + host.authWait⟩
  { host := { host with
      applicants := host.applicants ++ [applicant]
      applications := host.applications + 1 }
    jobs := [.consider applicant.id] }

/-- Queues a datagram for the worker of the seat it came from; false if nobody sits there. -/
def receive (host : Host) (endpoint : Endpoint) (datagram : Bytes) : Bool × Scene :=
  match host.registry.seatAt? endpoint with
  | none => (false, { host })
  | some seat =>
    match host.workers.find? (·.seat.id == seat.id) with
    | none => (true, { host })
    | some worker =>
      if worker.inbox.length < inboxLimit then
        (true,
          { host := { host with workers := host.workers.map fun w =>
              if w.seat.id = seat.id then { w with inbox := w.inbox ++ [datagram] } else w }
            notices := [.accepted seat.id datagram]
            jobs := [.serve seat.id] })
      else
        (true, { host })

/-- Delivers traffic in the name of `sender`. -/
def route (host : Host) (link : Link) (sender : UInt32) (traffic : Traffic) : Scene :=
  ({ host } : Scene).route link none sender traffic

/-- Takes the seat of an endpoint away; false if it has none. -/
def unregister (host : Host) (link : Link) (endpoint : Endpoint) : Bool × Scene :=
  match host.registry.seatAt? endpoint with
  | none => (false, { host })
  | some seat => (true, ({ host } : Scene).expel link .unregistered seat)

/-- Forgets all tokens and closes all seats. -/
def shutdown (host : Host) : Scene :=
  let registry := host.registry
  let scene : Scene :=
    { host := { host with registry := { registry with tokens := [], seats := [] } }
      notices := registry.tokens.map .tokenDropped }
  scene.closeAll .shutdown registry.seats

/-! ## Jobs -/

def dropApplicant (host : Host) (id : Nat) : Host :=
  { host with applicants := host.applicants.filter (·.id ≠ id) }

/-- An applicant looks for its token. It is let in, or turned away once its time is over, or goes on
waiting. A seat stays granted even if the answer cannot be sent. -/
def consider (host : Host) (now : Nat) (link : Link) (id : Nat) : Scene :=
  match host.applicants.find? (·.id == id) with
  | none => { host }
  | some applicant =>
    match host.registry.claim? host.grants applicant.endpoint applicant.presented with
    | some claim =>
      let worker : Worker := { seat := claim.seat }
      let scene : Scene :=
        { host := { host.dropApplicant id with
            registry := claim.registry
            workers := host.workers ++ [worker]
            grants := host.grants + 1 }
          notices := [.admitted id claim.token claim.seat] }
      let scene := scene.closeAll .replaced claim.replaced.toList
      let target := Target.peer applicant.endpoint
      let answer := Packet.overlayConfig (assigned claim.token)
      let result := match link target answer with
        | none => .ok (assigned claim.token)
        | some error => .error (.linkDown error)
      (scene.post link target answer).tell (.decided id result)
    | none =>
      if applicant.deadline ≤ now then
        { host := host.dropApplicant id, notices := [.decided id (.error .noMatchingToken)] }
      else
        { host }

def setWorker (host : Host) (worker : Worker) : Host :=
  { host with workers := host.workers.map fun w => if w.seat.id = worker.seat.id then worker else w }

def dropWorker (host : Host) (seat : Nat) : Host :=
  { host with workers := host.workers.filter (·.seat.id ≠ seat) }

/-- A worker ends if it was dismissed. Else it reads one datagram of its queue, has the traffic in
it routed, and comes back for the next; if the datagram makes no sense the worker ends and its seat
is given up, unless a successor has it by now. -/
def serve (host : Host) (link : Link) (id : Nat) : Scene :=
  match host.workers.find? (·.seat.id == id) with
  | none => { host }
  | some worker =>
    if worker.dismissed then
      { host := host.dropWorker id }
    else
      match worker.inbox with
      | [] => { host }
      | datagram :: inbox =>
        let fed := worker.stream.feed datagram
        let scene : Scene := { host := host.setWorker { worker with inbox, stream := fed.next } }
        let scene := (fed.frames.filterMap fun frame => Traffic.ofPacket? frame.packet).foldl
          (fun s traffic => s.route link (some id) worker.seat.virtualIp traffic) scene
        match fed.error with
        | none => scene.wake (.serve id)
        | some _ =>
          let scene := { scene with host := scene.host.dropWorker id }
          match host.registry.seat? id with
          | none => scene
          | some seat => scene.expel link .corrupt seat

/-- Tells a worker to end; it sees that when it is served next. -/
def dismiss (host : Host) (id : Nat) : Scene :=
  { host := { host with workers := host.workers.map fun w =>
      if w.seat.id = id then { w with dismissed := true } else w }
    jobs := [.serve id] }

def perform (host : Host) (now : Nat) (link : Link) : Job → Scene
  | .consider id => host.consider now link id
  | .serve id => host.serve link id
  | .dismiss id => host.dismiss id

/-! ## Time -/

/-- When the next applicant's time is over. -/
def due? (host : Host) : Option Nat :=
  (host.applicants.map (·.deadline)).min?

/-- The applicants whose time is over, for their last look. -/
def overdue (host : Host) (now : Nat) : List Job :=
  (host.applicants.filter (·.deadline ≤ now)).map (.consider ·.id)

/-- At least as many jobs as can still follow from the work at hand. -/
def backlog (host : Host) : Nat :=
  host.applicants.length + host.workers.foldr (fun w jobs => w.inbox.length + 3 + jobs) 0

end Host

end LocalPlay.Overlay
