import LocalPlay.Net.Interface
import LocalPlay.Overlay.Guest
import LocalPlay.Overlay.Host
import LocalPlay.Settings.Basic
import LocalPlay.Timing.Countdown
import LocalPlay.Timing.Latch

/-!
# Sessions with a relay

A session turns the relay's protocol into calls with results. A call opens the link to the relay if
it is not open, sends what it has to say, and waits, for a bounded time, until a packet raises the
latch it waits for. Packets come in at any time, change the session, raise latches and are announced
to whoever listens. In a network the session either hosts a proxy for the peers that join it, or is
a guest of a peer's proxy, or sends its traffic through the relay.

All of this is one value. What happens from outside (calls, datagrams, failures of the socket, time)
and what the session does by itself (calls that go on, jobs of a hosted proxy, the end of the
receive loop) are functions on it that also say what happened. This module has the parts of the
value.
-/

namespace LocalPlay.Session

open Net Wire Overlay Timing

/-- How far the link to the relay is. -/
inductive Phase where
  /-- No transport is open. -/
  | idle
  /-- A transport is open, the relay has not answered the handshake. -/
  | connecting
  | connected
  deriving DecidableEq, Repr

namespace Phase

def name : Phase → String
  | idle => "Idle"
  | connecting => "Connecting"
  | connected => "Connected"

end Phase

/-- What calls wait for. -/
inductive Signal where
  | handshake
  | relayError
  | scanEnd
  | rejectReply
  | joined
  deriving DecidableEq, Repr

/-- A confirmation of joining lets one call through; the others stay raised. -/
def Signal.once : Signal → Bool
  | joined => true
  | _ => false

/-- Requests that need the link and open it if they have to. -/
inductive Operation where
  | scan (filter : ScanFilter)
  | createPublic (request : AccessPoint 0x94) (advertised : Bytes)
  | createPrivate (request : AccessPoint 0x114) (advertised : Bytes)
  | connectPublic (request : PublicJoin)
  | connectPrivate (request : PrivateJoin)

inductive Call where
  | operate (operation : Operation)
  /-- Remove a station from the hosted network. -/
  | reject (removal : Removal)
  | setAdvertiseData (data : Bytes)
  | setJoinPolicy (policy : JoinPolicy)
  | leaveNetwork
  | stop
  /-- Stop, and forget the idle countdown. -/
  | leaveAndStop
  | sendTraffic (traffic : Traffic)

inductive SessionError where
  | settings (error : SettingsError)
  | notStarted
  | transport (error : SendError)
  | proxy (error : ProxyError)

namespace SessionError

def message : SessionError → String
  | settings error => s!"Invalid configuration: {error.message}"
  | notStarted => "Session not started."
  | transport error => s!"Transport failure: {error.message}"
  | proxy error => error.message

end SessionError

/-- What a call comes to. -/
inductive Outcome where
  | networks (found : List NetworkInfo)
  /-- The relay confirmed the network. -/
  | confirmed (yes : Bool)
  | joined (error : NetworkError)
  | removed (yes : Bool)
  | done
  | failed (error : SessionError)

/-- What a call that has not finished waits for, and with it how it goes on. -/
inductive Pause where
  /-- The relay's answer to the handshake, before the operation proper. -/
  | handshake (operation : Operation)
  | scanReplies
  /-- The confirmation of a network to be hosted. -/
  | confirmation
  | joinReply
  | rejectReply
  /-- The address the host assigns to a guest; the outcome is certain already. -/
  | address (guest : Nat) (arrived : Option OverlayConfig) (outcome : Outcome)
  /-- The end of the receive loop. -/
  | cleanup (ended : Bool)

/-- The latches a pause ends with, the most welcome first. -/
def Pause.awaited : Pause → List Signal
  | handshake _ => [.handshake, .relayError]
  | scanReplies => [.scanEnd, .relayError]
  | confirmation => [.joined]
  | joinReply => [.joined, .relayError]
  | rejectReply => [.rejectReply, .relayError]
  | address _ _ _ => []
  | cleanup _ => []

structure Waiting where
  id : Nat
  /-- Waiting for the receive loop to end has no limit. -/
  deadline : Option Nat
  pause : Pause

/-- Who waits for the receive loop to end. -/
inductive Stopper where
  | call (id : Nat)
  | idleCountdown
  deriving DecidableEq, Repr

/-- The receive loop of the open transport. -/
inductive Receiver where
  | absent
  | listening
  /-- Ended by itself, since the socket failed. -/
  | ended
  /-- Told to stop; ends when it is next looked at. -/
  | stopping (stopper : Stopper)
  deriving DecidableEq, Repr

/-- What the session has to do next. -/
inductive Activity where
  /-- A call looks whether it can go on. -/
  | resume (call : Nat)
  /-- The receive loop sees that it was told to stop. -/
  | cleanup
  /-- The idle countdown stops the session. -/
  | idleStop
  | host (job : Job)
  deriving DecidableEq, Repr

/-- The network this node takes part in changed. -/
structure NetworkChange where
  info : NetworkInfo
  connected : Bool
  reason : LeaveReason
  deriving DecidableEq

namespace NetworkChange

def arrived (info : NetworkInfo) : NetworkChange := ⟨info, true, .none⟩

def left (reason : LeaveReason) : NetworkChange := ⟨Block.zero, false, reason⟩

end NetworkChange

/-- What the part of the program that carries game traffic is told. -/
inductive ProxyEvent where
  /-- The relay assigned an overlay address. -/
  | configured (config : OverlayConfig)
  | message (traffic : Traffic)
  deriving DecidableEq

/-- What happened in a session. -/
inductive Notice where
  | opened
  /-- A packet was handed to the transport for a call, or for the session itself; the transport may
  have refused it. -/
  | posted (caller : Option Nat) (target : Target) (packet : Packet) (refusal : Option SendError)
  | handled (sender : Endpoint) (packet : Packet)
  | changed (change : NetworkChange)
  | proxied (event : ProxyEvent)
  | finished (call : Nat) (outcome : Outcome)
  /-- The receive loop ended. -/
  | closed
  /-- Something happened at the hosted proxy. -/
  | host (notice : Overlay.Notice)

end Session

/-- The guest of a peer's proxy this session is, numbered in the order in which the relay made
offers. -/
structure Membership where
  id : Nat
  guest : Overlay.Guest
  deriving DecidableEq

open Net Wire Overlay Timing in
structure Session where
  relay : Endpoint
  timeouts : Timeouts
  interfaces : Interfaces
  /-- The local address of every transport. -/
  localAddress : Except IoError Endpoint
  clock : Nat := 0
  faults : Faults := {}
  /-- Why transports cannot be opened, if they cannot. -/
  openFault : Option IoError := none
  phase : Session.Phase := .idle
  transportOpen : Bool := false
  receiver : Session.Receiver := .absent
  /-- Incomplete packets by sender. -/
  streams : List (Endpoint × Reassembly) := []
  /-- The relay's last handshake, repeated to it when the link is opened anew. -/
  identity : Identity := default
  passphrase : String
  /-- The passphrase the relay was told last on this link. -/
  passphraseSent : Option String := none
  /-- This node may host a proxy. -/
  p2p : Bool
  lastError : NetworkError := .none
  /-- What a scan has found so far. -/
  networks : List NetworkInfo := []
  leaveReason : LeaveReason := .none
  hosted : Option Host := none
  membership : Option Membership := none
  /-- Offers so far. -/
  offers : Nat := 0
  inNetwork : Bool := false
  overlay : Option OverlayConfig := none
  gameVersion : Block 16 := Block.zero
  latches : Latches Session.Signal := {}
  idle : Countdown
  /-- Calls so far. -/
  calls : Nat := 0
  waiting : List Session.Waiting := []
  ready : List Session.Activity := []

end LocalPlay
