import LocalPlay.Proofs.Session.Moves

/-!
# What a move is made of

A move goes through many small changes of the session, and most statements about sessions are about
a few of them. `Step` lists all there are, each with what is certain at that moment: a request is
only sent on a link that is not idle, a confirmation only given to a call that waits for one. That
every move is a sequence of such steps is shown once, by going through the acts in the order of
their definitions; what holds of sessions is then shown step by step.

A step belongs to a move from an origin, so that it can say what has not changed since the move
began. The order of steps is not always the order of the program: where two changes do not see each
other, the one that makes the statement simpler comes first. The order of notices is the program's.
-/

namespace LocalPlay.Session

open Net Wire Overlay Timing

/-! ### Operations -/

/-- The operation is to end in a network. -/
def Operation.joins : Operation → Bool
  | scan _ => false
  | _ => true

/-- The operation hosts a proxy before it asks. -/
def Operation.hosts : Operation → Bool
  | createPublic _ _ | createPrivate _ _ => true
  | _ => false

/-- What the relay is asked; the session completes the profile of a host. -/
def Operation.request (advertise : HostProfile → HostProfile) : Operation → Packet
  | scan filter => .scan filter
  | createPublic request advertised =>
    .createPublic { request with profile := advertise request.profile } advertised
  | createPrivate request advertised =>
    .createPrivate { request with profile := advertise request.profile } advertised
  | connectPublic request => .connectPublic request
  | connectPrivate request => .connectPrivate request

/-- The latches an operation lowers before its request. -/
def Operation.lowered : Operation → List Signal
  | scan _ => [.scanEnd, .relayError]
  | createPublic _ _ | createPrivate _ _ => []
  | connectPublic _ | connectPrivate _ => [.relayError]

theorem Operation.ne_of_mem_lowered (operation : Operation) :
    ∀ signal ∈ operation.lowered, signal ≠ .handshake ∧ signal ≠ .joined := by
  cases operation with
  | _ => simp [lowered]

def Operation.patience (timeouts : Timeouts) : Operation → Nat
  | scan _ => timeouts.scan
  | _ => timeouts.failure

/-- What the operation waits for after its request. -/
def Operation.pause : Operation → Pause
  | scan _ => .scanReplies
  | createPublic _ _ | createPrivate _ _ => .confirmation
  | connectPublic _ | connectPrivate _ => .joinReply

/-- The operation sees to the passphrase itself before its request. -/
def Operation.updatesFirst : Operation → Bool
  | scan _ | createPrivate _ _ => true
  | _ => false

/-- The pause belongs to a call that is to end in a network. -/
def Pause.joins : Pause → Bool
  | handshake operation => operation.joins
  | confirmation | joinReply | address _ _ _ => true
  | scanReplies | rejectReply | cleanup _ => false

/-- The pause belongs to a call that hosts a proxy until it is confirmed. -/
def Pause.hosts : Pause → Bool
  | handshake operation => operation.hosts
  | confirmation => true
  | _ => false

/-- The pause without what has arrived so far. -/
def Pause.plan : Pause → Pause
  | address guest _ outcome => .address guest none outcome
  | cleanup _ => .cleanup false
  | pause => pause

/-- What a call comes to that is let through by a confirmation. -/
def Pause.confirmed? : Pause → Option Outcome
  | confirmation => some (.confirmed true)
  | joinReply => some (.joined .none)
  | _ => none

/-- The network the call asked for was joined. -/
def Outcome.isJoined : Outcome → Bool
  | confirmed yes => yes
  | joined error => error = .none
  | _ => false

/-! ### Packets and notices -/

/-- The request of an operation. -/
def isRequest : Packet → Bool
  | .scan _ | .createPublic _ _ | .createPrivate _ _ | .connectPublic _ | .connectPrivate _ => true
  | _ => false

theorem Operation.isRequest_request (operation : Operation)
    (advertise : HostProfile → HostProfile) : isRequest (operation.request advertise) = true := by
  cases operation with
  | _ => rfl

/-- What an operation tells the relay first, or asks it. -/
def isOperational : Packet → Bool
  | .hello _ | .passphrase _ => true
  | packet => isRequest packet

/-- The packet changes what the session is to the relay or to its network. -/
def isSteering : Packet → Bool
  | .hello _ | .connected _ | .syncNetwork _ | .reject _ => true
  | _ => false

/-- A notice of something that changes nothing by itself. -/
def Notice.isIncidental : Notice → Bool
  | posted _ _ packet _ => !isOperational packet
  | handled _ packet => !isSteering packet
  | finished _ outcome => !outcome.isJoined
  | proxied _ | host _ => true
  | opened | closed | changed _ => false

/-! ### Steps -/

/-- The call was made in this move and has found everything as it was, but for the proxy. -/
structure Begun (origin s : Session) (call : Nat) : Prop where
  number : call = origin.calls
  counted : s.calls = call + 1
  waiting : s.waiting = origin.waiting
  phase : s.phase = origin.phase
  raised : s.latches.isRaised .joined = origin.latches.isRaised .joined

inductive Step (origin : Session) (m : Move) (s : Session) : Session → List Notice → Prop
  /-- Fields that no other step is about. -/
  | aside (clock faults openFault receiver streams lastError networks offers overlay gameVersion p2p
      idle ready) :
    Step origin m s { s with
      clock, faults, openFault, receiver, streams, lastError, networks, offers, overlay,
      gameVersion, p2p, idle, ready } []
  | say (notice : Notice) (hnotice : notice.isIncidental = true) : Step origin m s s [notice]
  | count (hmove : ∃ call, m = .event (.call call)) (hcalls : s.calls = origin.calls) :
    Step origin m s { s with calls := s.calls + 1 } []
  | setPassphrase (text : String) (hmove : m = .event (.setPassphrase text))
      (hfits : passphraseFits text = true) :
    Step origin m s { s with passphrase := text } []
  /-- The hosted proxy does something, or there is another or none; where there was none, a call
  hosts one. -/
  | host (hosted : Option Host)
      (hkept : hosted.isSome = true → s.hosted.isSome = true ∨
        ∃ operation, m = .event (.call (.operate operation)) ∧ operation.hosts = true) :
    Step origin m s { s with hosted } []
  /-- The relay names another host, or the host assigns an address. -/
  | accompany (membership : Option Membership)
      (hmove : ∃ sender bytes, m = .event (.datagram sender bytes)) :
    Step origin m s { s with membership } []
  | raise (signal : Signal) (hsignal : signal ≠ .handshake ∧ signal ≠ .joined) :
    Step origin m s { s with latches := s.latches.raise signal } []
  | lower (signal : Signal) (hsignal : signal ≠ .joined) :
    Step origin m s { s with latches := s.latches.lower signal } []
  /-- Calls that wait hear of something without going on. -/
  | inform (f : Waiting → Waiting) (hcall : ∀ w, (f w).id = w.id)
      (hplan : ∀ w, (f w).pause.plan = w.pause.plan) :
    Step origin m s { s with waiting := s.waiting.map f } []
  /-- The link is opened for a call. -/
  | openLink (call : Nat) (operation : Operation) (deadline : Option Nat)
      (refusal : Option SendError) (hmove : m = .event (.call (.operate operation)))
      (hbegun : Begun origin s call) (hphase : s.phase = .idle) :
    Step origin m s
      { s with
        receiver := .listening
        streams := []
        phase := .connecting
        transportOpen := true
        latches := s.latches.lower .handshake
        waiting := s.waiting ++ [⟨call, deadline, .handshake operation⟩] }
      [.opened, .posted (some call) .relay (.hello s.identity) refusal]
  | closeLink (receiver : Receiver)
      (hmove : m = .turn .cleanup ∨ ∃ error, m = .event (.receiveError error))
      (hnetwork : s.inNetwork = false) :
    Step origin m s
      { s with
        receiver
        streams := []
        phase := .idle
        passphraseSent := none
        transportOpen := false } [.closed]
  | updatePassphrase (call : Nat) (refusal : Option SendError) (hphase : s.phase ≠ .idle)
      (hlink : (∃ operation, m = .event (.call (.operate operation))) ∧ s.phase = origin.phase ∨
        m = .turn (.resume call) ∧ s.latches.isRaised .handshake = true)
      (hnew : s.passphraseSent ≠ some s.passphrase) (hsame : s.passphrase = origin.passphrase) :
    Step origin m s { s with passphraseSent := some s.passphrase }
      [.posted (some call) .relay (.passphrase (passphraseField s.passphrase)) refusal]
  /-- A call asks the relay at once, since the link is open. -/
  | ask (call : Nat) (operation : Operation) (deadline : Option Nat) (refusal : Option SendError)
      (hmove : m = .event (.call (.operate operation))) (hbegun : Begun origin s call)
      (hphase : s.phase ≠ .idle) (hsame : s.passphrase = origin.passphrase)
      (hsent : s.passphraseSent =
        if operation.updatesFirst then some s.passphrase else origin.passphraseSent) :
    Step origin m s
      { s with waiting := s.waiting ++ [⟨call, deadline, operation.pause⟩] }
      [.posted (some call) .relay (operation.request s.advertise) refusal]
  /-- A call asks the relay after the handshake it waited for. -/
  | goOn (w : Waiting) (operation : Operation) (deadline : Option Nat) (refusal : Option SendError)
      (hmove : m = .turn (.resume w.id)) (hwaiting : w ∈ origin.waiting)
      (hpause : w.pause = .handshake operation)
      (hended : s.waiting = origin.waiting.filter (·.id ≠ w.id)) (hcalls : s.calls = origin.calls)
      (hphase : s.phase ≠ .idle) (hhandshake : s.latches.isRaised .handshake = true)
      (hraised : s.latches.isRaised .joined = origin.latches.isRaised .joined)
      (hsame : s.passphrase = origin.passphrase) (hsent : s.passphraseSent = some s.passphrase) :
    Step origin m s
      { s with waiting := s.waiting ++ [⟨w.id, deadline, operation.pause⟩] }
      [.posted (some w.id) .relay (operation.request s.advertise) refusal]
  /-- A call waits that asks for nothing to join. -/
  | wait (call : Nat) (deadline : Option Nat) (pause : Pause)
      (hmove : ∃ call, m = .event (.call call)) (hbegun : Begun origin s call)
      (hpause : pause.joins = false) (hawaited : .joined ∉ pause.awaited)
      (hhandshake : ∀ operation, pause ≠ .handshake operation) :
    Step origin m s { s with waiting := s.waiting ++ [⟨call, deadline, pause⟩] } []
  /-- A call waits no longer, and no confirmation is there that it could have taken. -/
  | giveUp (w : Waiting) (hmove : m = .turn (.resume w.id)) (hwaiting : w ∈ s.waiting)
      (hdown : .joined ∈ w.pause.awaited → s.latches.isRaised .joined = false) :
    Step origin m s { s with waiting := s.waiting.filter (·.id ≠ w.id) } []
  /-- A call takes a confirmation and fails all the same. -/
  | waste (w : Waiting) (hmove : m = .turn (.resume w.id)) (hwaiting : w ∈ s.waiting) :
    Step origin m s
      { s with
        waiting := s.waiting.filter (·.id ≠ w.id)
        latches := s.latches.lower .joined } []
  /-- A call is let through by a confirmation. -/
  | confirm (w : Waiting) (outcome : Outcome) (hmove : m = .turn (.resume w.id))
      (hwaiting : w ∈ s.waiting) (hpause : w.pause.confirmed? = some outcome)
      (hraised : s.latches.isRaised .joined = true) (hguest : s.membership = none) :
    Step origin m s
      { s with
        waiting := s.waiting.filter (·.id ≠ w.id)
        latches := s.latches.lower .joined } [.finished w.id outcome]
  /-- A call is let through, but waits for its address in the overlay. -/
  | confirmGuest (w : Waiting) (outcome : Outcome) (deadline : Option Nat) (guest : Nat)
      (arrived : Option OverlayConfig) (hmove : m = .turn (.resume w.id))
      (hwaiting : w ∈ s.waiting) (hpause : w.pause.confirmed? = some outcome)
      (hraised : s.latches.isRaised .joined = true) (hguest : s.membership.isSome = true) :
    Step origin m s
      { s with
        waiting := s.waiting.filter (·.id ≠ w.id) ++
          [⟨w.id, deadline, .address guest arrived outcome⟩]
        latches := s.latches.lower .joined } []
  | settle (w : Waiting) (guest : Nat) (arrived : Option OverlayConfig) (outcome : Outcome)
      (hmove : m = .turn (.resume w.id)) (hwaiting : w ∈ s.waiting)
      (hpause : w.pause = .address guest arrived outcome) (hbefore : w ∈ origin.waiting) :
    Step origin m s { s with waiting := s.waiting.filter (·.id ≠ w.id) }
      [.finished w.id outcome]
  | greet (sender : Endpoint) (identity : Identity) (hphase : s.phase ≠ .idle) :
    Step origin m s
      { s with identity, phase := .connected, latches := s.latches.raise .handshake }
      [.handled sender (.hello identity)]
  | join (sender : Endpoint) (info : NetworkInfo)
      (hmove : ∃ bytes, m = .event (.datagram sender bytes)) :
    Step origin m s
      { s with
        inNetwork := true
        leaveReason := .none
        latches := s.latches.raise .joined }
      [.handled sender (.connected info), .changed (.arrived info)]
  | syncNetwork (sender : Endpoint) (info : NetworkInfo) (refusal : Option SendError) :
    Step origin m s s
      [.handled sender (.syncNetwork info), .posted none .relay (.syncNetwork info) refusal,
        .changed (.arrived info)]
  | reject (sender : Endpoint) (removal : Removal) :
    Step origin m s { s with leaveReason := removal.reason } [.handled sender (.reject removal)]
  | leave (hnetwork : s.inNetwork = true) (hhosted : s.hosted = none)
      (hmove : ∀ call, m ≠ .turn (.resume call)) :
    Step origin m s
      { s with
        inNetwork := false
        membership := none
        overlay := none
        latches := s.latches.lower .joined } [.changed (.left s.leaveReason)]

/-- Some steps of a move, one after the other. -/
inductive Steps (origin : Session) (m : Move) (s : Session) : Session → List Notice → Prop
  | refl : Steps origin m s s []
  | tail {t u : Session} {told more : List Notice} (hsteps : Steps origin m s t told)
      (hstep : Step origin m t u more) : Steps origin m s u (told ++ more)

end LocalPlay.Session
