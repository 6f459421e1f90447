import LocalPlay.Overlay.Host
import LocalPlay.Timing.Schedule

/-!
# A proxy host on its own

A host together with what runs it: a clock, the state of its link, and the queue of its jobs.
Requests come from outside, one at a time; after each the service is settled.
-/

namespace LocalPlay.Overlay

open Net Wire Timing

structure Service where
  clock : Nat := 0
  faults : Faults := {}
  host : Host
  ready : List Job := []

namespace Service

inductive Request where
  | addToken (token : ProxyToken)
  | apply (endpoint : Endpoint) (offer : ProxyOffer)
  | applyPresence (presence : ProxyPresence)
  /-- Datagrams that arrive before any worker runs. -/
  | receive (endpoint : Endpoint) (datagrams : List Bytes)
  | route (sender : UInt32) (traffic : Traffic)
  | unregister (endpoint : Endpoint)
  | shutdown
  | setFault (target : Option Target) (error : Option IoError)

/-- What a request answers at once. -/
inductive Reply where
  | nothing
  | truth (value : Bool)
  /-- The number of the application that was made. -/
  | application (id : Nat)

/-- Adds a job unless it is waiting already. -/
def enqueue (ready : List Job) (job : Job) : List Job :=
  if job ∈ ready then ready else ready ++ [job]

/-- Takes over the host of a scene and queues the jobs it woke. -/
def adopt (s : Service) (scene : Scene) : Service :=
  { s with host := scene.host, ready := scene.jobs.foldl enqueue s.ready }

def link (s : Service) : Link := s.faults.link

def receiveAll (s : Service) (endpoint : Endpoint) : List Bytes → Bool × Service × List Notice
  | [] => (true, s, [])
  | datagram :: rest =>
    let (seated, scene) := s.host.receive endpoint datagram
    let (others, s, notices) := (s.adopt scene).receiveAll endpoint rest
    (seated && others, s, scene.notices ++ notices)

def request (s : Service) : Request → Reply × Service × List Notice
  | .addToken token => plain (s.host.addToken token)
  | .apply endpoint offer =>
    let scene := s.host.apply s.clock endpoint offer
    (.application s.host.applications, s.adopt scene, scene.notices)
  | .applyPresence presence => plain (s.host.applyPresence presence)
  | .receive endpoint datagrams =>
    let (seated, s, notices) := s.receiveAll endpoint datagrams
    (.truth seated, s, notices)
  | .route sender traffic => plain (s.host.route s.link sender traffic)
  | .unregister endpoint =>
    let (found, scene) := s.host.unregister s.link endpoint
    (.truth found, s.adopt scene, scene.notices)
  | .shutdown => plain s.host.shutdown
  | .setFault target error => (.nothing, { s with faults := s.faults.set target error }, [])
where
  plain (scene : Scene) : Reply × Service × List Notice := (.nothing, s.adopt scene, scene.notices)

/-- Does the job that has waited longest. -/
def turn (s : Service) : Option (Service × List Notice) :=
  match s.ready with
  | [] => none
  | job :: ready =>
    let scene := s.host.perform s.clock s.link job
    some (({ s with ready }).adopt scene, scene.notices)

def machine : Machine Service Notice where
  turn := turn
  turns s := 4 * (s.ready.length + s.host.backlog) + 4
  due? s := s.host.due?
  stops s := s.host.applicants.length
  reach time s := { s with clock := time, ready := (s.host.overdue time).foldl enqueue s.ready }

end Service

end LocalPlay.Overlay
