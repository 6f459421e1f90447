import LocalPlay.Session.Basic

/-!
# Acts

An act is a session on its way through something that happens, with what has happened so far. The
steps here are the words in which the rest is written: change a field, raise a latch, send, wait,
finish.
-/

namespace LocalPlay.Session

open Net Wire Overlay Timing

structure Act where
  session : Session
  told : List Notice := []

/-- The way a packet to an endpoint goes: the relay is the relay under its address too. -/
def targetOf (s : Session) (endpoint : Endpoint) : Target :=
  if endpoint = s.relay then .relay else .peer endpoint

/-- The session's own socket as a link: it needs an open transport, a packet that can be encoded,
and a way that is not broken. -/
def link (s : Session) : Link := fun target packet =>
  if !s.transportOpen then
    some (.io .notConnected)
  else
    match packet.encode with
    | .error error => some (.unsendable error)
    | .ok _ =>
      let target := match target with
        | .relay => .relay
        | .peer endpoint => s.targetOf endpoint
      (s.faults.at? target).map .io

namespace Act

def update (a : Act) (f : Session → Session) : Act :=
  { a with session := f a.session }

def tell (a : Act) (notice : Notice) : Act :=
  { a with told := a.told ++ [notice] }

/-- Adds an activity unless it is waiting for its turn already. -/
def wake (a : Act) (activity : Activity) : Act :=
  a.update fun s => if activity ∈ s.ready then s else { s with ready := s.ready ++ [activity] }

/-- Hands a packet to the transport. -/
def post (a : Act) (caller : Option Nat) (target : Target) (packet : Packet) : Act :=
  a.tell (.posted caller target packet (a.session.link target packet))

/-- Raises a latch; calls that wait for it look at it in the order in which they began to wait. -/
def raise (a : Act) (signal : Signal) : Act :=
  let a := a.update fun s => { s with latches := s.latches.raise signal }
  (a.session.waiting.filter (signal ∈ ·.pause.awaited)).foldl (fun a w => a.wake (.resume w.id)) a

def lower (a : Act) (signal : Signal) : Act :=
  a.update fun s => { s with latches := s.latches.lower signal }

def finish (a : Act) (call : Nat) (outcome : Outcome) : Act :=
  a.tell (.finished call outcome)

/-- The call waits. It looks at once whether it has to. -/
def pause (a : Act) (call : Nat) (timeout : Option Nat) (pause : Pause) : Act :=
  a.update fun s =>
    { s with
      waiting := s.waiting ++ [⟨call, timeout.map (s.clock + ·), pause⟩]
      ready := .resume call :: s.ready }

/-- Takes the relay's last error; it is read once. -/
def takeError (a : Act) : NetworkError × Act :=
  (a.session.lastError, a.update fun s => { s with lastError := .none })

/-! ## The hosted proxy -/

/-- Forgets the hosted proxy with all that waits for it. -/
def disposeHost (a : Act) : Act :=
  match a.session.hosted with
  | none => a
  | some host =>
    let a := a.update fun s =>
      { s with
        hosted := none
        ready := s.ready.filter fun activity => match activity with
          | .host _ => false
          | _ => true }
    { a with told := a.told ++ host.shutdown.notices.map .host }

/-- Takes over the host of a scene, what happened there, and the jobs it woke. -/
def adopt (a : Act) (scene : Scene) : Act :=
  let a := a.update fun s => { s with hosted := some scene.host }
  let a := { a with told := a.told ++ scene.notices.map .host }
  scene.jobs.foldl (fun a job => a.wake (.host job)) a

/-- Hosts a fresh proxy in place of any other, unless proxies are forbidden. -/
def hostProxy (a : Act) : Act :=
  if a.session.p2p then
    a.disposeHost.update fun s => { s with hosted := some { authWait := s.timeouts.authWait } }
  else
    a

/-! ## Networks -/

/-- Leaves the network, if in one: all that belonged to it is gone, and this is announced. -/
def leave (a : Act) : Act :=
  if a.session.inNetwork then
    let reason := a.session.leaveReason
    let a := a.update fun s => { s with inNetwork := false, membership := none, overlay := none }
    (a.disposeHost.lower .joined).tell (.changed (.left reason))
  else
    a

/-- The receive loop is over: the transport is closed and any network left. -/
def close (a : Act) (receiver : Receiver) : Act :=
  (a.update fun s =>
    { s with
      receiver
      streams := []
      phase := .idle
      passphraseSent := none
      transportOpen := false }).leave.tell .closed

/-- Tells the relay the passphrase unless it was told this one already. -/
def updatePassphrase (a : Act) (call : Nat) : Act :=
  let passphrase := a.session.passphrase
  if a.session.passphraseSent = some passphrase then
    a
  else
    (a.update fun s => { s with passphraseSent := some passphrase }).post (some call) .relay
      (.passphrase (passphraseField passphrase))

/-- Tells the receive loop to stop and has the stopper wait for it; false if there is nothing to
wait for. -/
def stopReceiver (a : Act) (stopper : Stopper) : Bool × Act :=
  match a.session.receiver with
  | .listening => (true, (a.update fun s => { s with receiver := .stopping stopper }).wake .cleanup)
  | .ended => (false, a.update fun s => { s with receiver := .absent })
  | .absent | .stopping _ => (false, a)

end Act

end LocalPlay.Session
