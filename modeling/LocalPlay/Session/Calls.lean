import LocalPlay.Session.Act

/-!
# Calls

Every call is written as stretches between its pauses. `begin` is the first stretch, `resume` the
others: it looks whether what the call waits for has happened, or its time is over, and goes on from
there.

An operation that needs the link goes on at once if the link is not idle. Else it opens a transport,
offers the relay the identity of the last handshake, and waits for the relay's.
-/

namespace LocalPlay.Session

open Net Wire Overlay Timing

/-- The profile of this node in an access point request: its game version and, if it hosts a proxy
that others can reach, where. -/
def advertise (s : Session) (profile : HostProfile) : HostProfile :=
  let profile := { profile with gameVersion := s.gameVersion }
  if s.hosted.isNone ∨ !s.transportOpen then
    profile
  else
    match s.localAddress, s.interfaces.lanAddress with
    | .ok here, .ok (some ip) =>
      let (privateIp, family) := ip.toField
      { profile with privateIp, family, internalPort := here.port, externalPort := 0 }
    | _, _ => profile

namespace Act

/-- Opens a transport and begins the handshake. -/
def openLink (a : Act) (call : Nat) (operation : Operation) : Act :=
  (a.update fun s =>
      { s with receiver := .listening, streams := [], phase := .connecting, transportOpen := true })
    |>.tell .opened
    |>.lower .handshake
    |>.lower .relayError
    |>.post (some call) .relay (.hello a.session.identity)
    |>.pause call (some a.session.timeouts.failure) (.handshake operation)

def finishScan (a : Act) (call : Nat) (ended : Bool) : Act :=
  let (error, a) := a.takeError
  a.finish call (.networks (if ended ∧ error = .none then a.session.networks else []))

/-- Asks to join a network and waits for the answer. -/
def requestJoin (a : Act) (call : Nat) (request : Packet) : Act :=
  a.lower .relayError
    |>.post (some call) .relay request
    |>.pause call (some a.session.timeouts.failure) .joinReply

/-- The operation proper, once the link is open. -/
def operate (a : Act) (call : Nat) : Operation → Act
  | .scan filter =>
    a.updatePassphrase call
      |>.lower .scanEnd
      |>.lower .relayError
      |>.post (some call) .relay (.scan filter)
      |>.pause call (some a.session.timeouts.scan) .scanReplies
  | .createPublic request advertised =>
    a.post (some call) .relay
        (.createPublic { request with profile := a.session.advertise request.profile } advertised)
      |>.updatePassphrase call
      |>.pause call (some a.session.timeouts.failure) .confirmation
  | .createPrivate request advertised =>
    a.updatePassphrase call
      |>.post (some call) .relay
        (.createPrivate { request with profile := a.session.advertise request.profile } advertised)
      |>.pause call (some a.session.timeouts.failure) .confirmation
  | .connectPublic request => a.requestJoin call (.connectPublic request)
  | .connectPrivate request => a.requestJoin call (.connectPrivate request)

/-- What an operation comes to that does not get a link. -/
def giveUp (a : Act) (call : Nat) : Operation → Act
  | .scan _ => a.finishScan call false
  | .createPublic _ _ | .createPrivate _ _ => a.disposeHost.finish call (.confirmed false)
  | .connectPublic _ | .connectPrivate _ => a.finish call (.joined .unknown)

/-- Starts the idle countdown anew. A countdown without duration is over at once. -/
def refreshIdle (a : Act) : Act :=
  let (ended, idle) := (a.session.idle.refresh a.session.clock).reach a.session.clock
  let a := a.update fun s => { s with idle }
  if ended then a.wake .idleStop else a

/-- What an operation does before it looks at the link. -/
def prepare (a : Act) : Operation → Act
  | .scan _ =>
    let a := a.update fun s => { s with networks := [] }
    if a.session.inNetwork then a else a.refreshIdle
  | .createPublic _ _ | .createPrivate _ _ =>
    (a.update fun s => { s with idle := s.idle.disable }).hostProxy
  | .connectPublic _ | .connectPrivate _ =>
    a.update fun s => { s with idle := s.idle.disable }

def beginOperation (a : Act) (call : Nat) (operation : Operation) : Act :=
  let a := a.prepare operation
  if a.session.phase ≠ .idle then
    a.operate call operation
  else if a.session.openFault.isSome then
    (a.update fun s => { s with receiver := .absent }).giveUp call operation
  else
    a.openLink call operation

/-- Only in a network there is anyone to send this to. -/
def postInNetwork (a : Act) (call : Nat) (packet : Packet) : Act :=
  if a.session.inNetwork then a.post (some call) .relay packet else a

def beginStop (a : Act) (call : Nat) : Act :=
  match a.stopReceiver (.call call) with
  | (true, a) => a.pause call none (.cleanup false)
  | (false, a) => a.finish call .done

def sendTraffic (a : Act) (call : Nat) (traffic : Traffic) : Act :=
  let s := a.session
  let outcome (wrap : SendError → SessionError) (refusal : Option SendError) : Outcome :=
    match refusal with
    | none => .done
    | some error => .failed (wrap error)
  if s.phase = .idle then
    a.finish call (.failed .notStarted)
  else
    match s.membership with
    | some membership =>
      let target := s.targetOf membership.guest.endpoint
      (a.post (some call) target traffic.toPacket).finish call
        (outcome (.proxy ∘ .linkDown) (s.link target traffic.toPacket))
    | none =>
      (a.post (some call) .relay traffic.toPacket).finish call
        (outcome .transport (s.link .relay traffic.toPacket))

/-- The first stretch of a call. -/
def begin (a : Act) (call : Nat) : Call → Act
  | .operate operation => a.beginOperation call operation
  | .reject removal =>
    if a.session.inNetwork then
      a.lower .rejectReply
        |>.lower .relayError
        |>.post (some call) .relay (.reject removal)
        |>.pause call (some a.session.timeouts.inactive) .rejectReply
    else
      a.finish call (.removed false)
  | .setAdvertiseData data => (a.postInNetwork call (.advertiseData data)).finish call .done
  | .setJoinPolicy policy => (a.postInNetwork call (.joinPolicy policy)).finish call .done
  | .leaveNetwork => (a.postInNetwork call (.disconnect 0)).leave.finish call .done
  | .stop => a.beginStop call
  | .leaveAndStop => (a.update fun s => { s with idle := s.idle.disable }).beginStop call
  | .sendTraffic traffic => a.sendTraffic call traffic

/-- Waits for the address a guest is assigned, if it is a guest, and finishes. -/
def awaitAddress (a : Act) (call : Nat) (outcome : Outcome) : Act :=
  match a.session.membership with
  | some membership =>
    a.pause call (some a.session.timeouts.failure)
      (.address membership.id membership.guest.config outcome)
  | none => a.finish call outcome

/-- Goes on after a pause that latches end: `index` is the place of the latch, nothing if the time
is over. -/
def goOn (a : Act) (call : Nat) (index : Option Nat) : Pause → Act
  | .handshake operation =>
    if a.session.phase ≠ .idle ∧ index = some 0 then
      (a.updatePassphrase call).operate call operation
    else
      a.takeError.2.giveUp call operation
  | .scanReplies => a.finishScan call (index = some 0)
  | .confirmation =>
    let a := if a.session.p2p then a else a.disposeHost
    if index.isSome then
      a.awaitAddress call (.confirmed true)
    else
      a.disposeHost.finish call (.confirmed false)
  | .joinReply =>
    let (error, a) := a.takeError
    if error ≠ .none then
      a.finish call (.joined error)
    else if index ≠ some 0 then
      a.finish call (.joined .connectTimeout)
    else
      a.awaitAddress call (.joined .none)
  | .rejectReply =>
    let (error, a) := a.takeError
    a.finish call (.removed (index = some 0 ∧ error = .none))
  | .address _ _ _ | .cleanup _ => a

/-- The call waits no longer. -/
def endPause (a : Act) (call : Nat) : Act :=
  a.update fun s => { s with waiting := s.waiting.filter (·.id ≠ call) }

/-- A call that waits looks whether it can go on. -/
def resume (a : Act) (call : Nat) : Act :=
  match a.session.waiting.find? (·.id == call) with
  | none => a
  | some waiting =>
    let timeOver := waiting.deadline.any (· ≤ a.session.clock)
    match waiting.pause with
    | .cleanup ended => if ended then (a.endPause call).finish call .done else a
    | .address _ arrived outcome =>
      if arrived.isSome ∨ timeOver then
        ((a.endPause call).update fun s => { s with overlay := arrived }).finish call outcome
      else
        a
    | pause =>
      let (glance, latches) := a.session.latches.glance Signal.once pause.awaited timeOver
      let a' := (a.endPause call).update fun s => { s with latches }
      match glance with
      | .fired index => a'.goOn call (some index) pause
      | .timedOut => a'.goOn call none pause
      | .waiting => a

end Act

end LocalPlay.Session
