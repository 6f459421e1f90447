import LocalPlay.Session.Calls
import LocalPlay.Session.Receive

/-!
# Running a session

`happen` is what can happen to a session from outside, `perform` what it does by itself. Between two
things that happen the session is settled: its activities get their turns in the order in which they
became ready. A call that begins to wait looks at once whether it has to, so it keeps its turn for
that.
-/

namespace LocalPlay.Session

open Net Wire Overlay Timing

/-- A session that has not been used. -/
def create (settings : Settings) (interfaces : Interfaces) (localAddress : Except IoError Endpoint) :
    Except SessionError Session :=
  match settings.server.resolve with
  | .error error => .error (.settings error)
  | .ok relay => .ok
    { relay
      timeouts := settings.timeouts
      interfaces
      localAddress
      passphrase := settings.passphrase
      p2p := !settings.disableP2p
      idle := { duration := settings.timeouts.inactive } }

inductive Event where
  | call (call : Call)
  | datagram (sender : Endpoint) (bytes : Bytes)
  | receiveError (error : IoError)
  | setPassphrase (text : String)
  | setGameVersion (version : Bytes)
  | setOpenFault (error : Option IoError)
  | setFault (target : Option Target) (error : Option IoError)

/-- What an event answers at once. -/
inductive Reply where
  | nothing
  /-- The number of the call. -/
  | call (id : Nat)
  /-- Someone was there to receive. -/
  | received (yes : Bool)
  | outcome (result : Except SessionError Unit)

/-- Someone waits for datagrams. -/
def isListening (s : Session) : Bool :=
  s.phase ≠ .idle ∧ s.transportOpen ∧ s.receiver = .listening

/-- Hosted proxies are reached under the relay's address as the relay. -/
def normalTarget (s : Session) : Target → Target
  | .relay => .relay
  | .peer endpoint => s.targetOf endpoint

def happen (s : Session) : Event → Reply × Act
  | .call call =>
    let id := s.calls
    (.call id, ({ session := { s with calls := id + 1 } } : Act).begin id call)
  | .datagram sender bytes =>
    if s.isListening then (.received true, ({ session := s } : Act).receive sender bytes)
    else (.received false, { session := s })
  | .receiveError error =>
    if s.isListening then (.received true, ({ session := s } : Act).receiveFailed error)
    else (.received false, { session := s })
  | .setPassphrase text =>
    if passphraseFits text then (.outcome (.ok ()), { session := { s with passphrase := text } })
    else (.outcome (.error (.settings .passphraseTooLong)), { session := s })
  | .setGameVersion version =>
    (.nothing, { session := { s with gameVersion := Block.ofBytes version } })
  | .setOpenFault error => (.nothing, { session := { s with openFault := error } })
  | .setFault target error =>
    (.nothing, { session := { s with faults := s.faults.set (target.map s.normalTarget) error } })

namespace Act

/-- The receive loop sees that it was told to stop, and whoever waits for that goes on. -/
def cleanup (a : Act) : Act :=
  match a.session.receiver with
  | .stopping stopper =>
    let a := a.close .absent
    match stopper with
    | .idleCountdown => a
    | .call id =>
      (a.update fun s =>
        { s with waiting := s.waiting.map fun w =>
            match w.pause with
            | .cleanup _ => if w.id = id then { w with pause := .cleanup true } else w
            | _ => w }).wake (.resume id)
  | _ => a

def perform (a : Act) : Activity → Act
  | .resume call => a.resume call
  | .cleanup => a.cleanup
  | .idleStop => (a.stopReceiver .idleCountdown).2
  | .host job => a.atHost fun host => host.perform a.session.clock a.session.link job

end Act

/-- Does what has been ready longest. -/
def turn (s : Session) : Option (Session × List Notice) :=
  match s.ready with
  | [] => none
  | activity :: ready =>
    let act := ({ session := { s with ready } } : Act).perform activity
    some (act.session, act.told)

/-- The next time something is over: a call's patience, an applicant's, or the idle countdown. -/
def due? (s : Session) : Option Nat :=
  let calls := s.waiting.filterMap (·.deadline)
  let applicants := (s.hosted.bind (·.due?)).toList
  (calls ++ applicants ++ s.idle.deadline.toList).min?

/-- The clock stands at `time`: calls whose time is over look up, then applicants, and last the idle
countdown. -/
def reach (time : Nat) (s : Session) : Session :=
  let (ended, idle) := s.idle.reach time
  let calls := (s.waiting.filter (·.deadline.any (· ≤ time))).map fun w => Activity.resume w.id
  let applicants := (s.hosted.toList.flatMap (·.overdue time)).map Activity.host
  let stop := if ended then [Activity.idleStop] else []
  let act := (calls ++ applicants ++ stop).foldl (fun a activity => a.wake activity)
    ({ session := { s with clock := time, idle } } : Act)
  act.session

def machine : Machine Session Notice where
  turn := turn
  turns s :=
    8 * (s.ready.length + s.waiting.length + (s.hosted.map (·.backlog)).getD 0) + 16
  due? := due?
  stops s := s.waiting.length + (s.hosted.map (·.applicants.length)).getD 0 + 1
  reach := reach

/-- Something happens, and the session settles. -/
def step (s : Session) (event : Event) : Reply × Session × List Notice :=
  let (reply, act) := s.happen event
  let (s, more) := machine.settle act.session
  (reply, s, act.told ++ more)

/-- Time passes. -/
def wait (s : Session) (millis : Nat) : Session × List Notice :=
  machine.advance (s.clock + millis) s

end LocalPlay.Session
