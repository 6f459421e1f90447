import LocalPlay.Session.Act

/-!
# Receiving

Datagrams of seated peers of the hosted proxy go to their workers. All others are pieces of their
sender's stream, and the packets in it are handled in order, to the end of the datagram, before any
call they wake goes on. A stream is remembered only while it has an incomplete packet.

Packets are told apart by kind, and only an offer of a proxy also by sender: from the relay it
points to a host, from anyone else it asks for a seat.
-/

namespace LocalPlay.Session

open Net Wire Overlay Timing

/-- Size of the buffer datagrams are received in; what is longer is cut. -/
def receiveLimit : Nat := packetLimit

/-- Feeds a datagram to its sender's stream: the packets it completes, and the streams that are
incomplete now. -/
def reassemble (streams : List (Endpoint × Reassembly)) (sender : Endpoint) (datagram : Bytes) :
    List Packet × List (Endpoint × Reassembly) :=
  let fed := ((streams.lookup sender).getD .empty).feed datagram
  let others := streams.filter (·.1 ≠ sender)
  let streams :=
    if fed.error.isSome ∨ fed.next.pending = 0 then others else (sender, fed.next) :: others
  (fed.frames.map (·.packet), streams)

namespace Act

/-- The relay points to a proxy host: become its guest and present the token. Without an address it
points nowhere. -/
def joinProxy (a : Act) (offer : ProxyOffer) : Act :=
  match Ip.ofField? offer.ip offer.family with
  | none => a
  | some ip =>
    let endpoint : Endpoint := { ip, port := offer.port }
    let target := a.session.targetOf endpoint
    let refused := (a.session.link target (.proxyOffer offer)).isSome
    let a := (a.update fun s =>
      { s with
        membership := some ⟨s.offers, { endpoint }⟩
        offers := s.offers + 1 }).post none target (.proxyOffer offer)
    if refused then a.leave else a

/-- An address in the overlay is assigned: by the host to its guest, else by the relay. Either way
it is confirmed back. -/
def acceptOverlay (a : Act) (config : OverlayConfig) : Act :=
  match a.session.membership with
  | some membership =>
    let a := a.update fun s =>
      { s with
        membership := some { membership with guest := membership.guest.assign config }
        waiting := s.waiting.map fun w =>
          match w.pause with
          | .address guest arrived outcome =>
            let arrived := if guest = membership.id then some config else arrived
            { w with pause := .address guest arrived outcome }
          | _ => w }
    let waiters := a.session.waiting.filter fun w =>
      match w.pause with
      | .address guest _ _ => guest = membership.id
      | _ => false
    let a := waiters.foldl (fun a w => a.wake (.resume w.id)) a
    a.post none (a.session.targetOf membership.guest.endpoint) (.overlayConfig config)
  | none =>
    (a.update fun s => { s with overlay := some config })
      |>.post none .relay (.overlayConfig config)
      |>.tell (.proxied (.configured config))

/-- Has the hosted proxy do something, if there is one. -/
def atHost (a : Act) (f : Host → Scene) : Act :=
  match a.session.hosted with
  | some host => a.adopt (f host)
  | none => a

def handle (a : Act) (sender : Endpoint) (packet : Packet) : Act :=
  let a := a.tell (.handled sender packet)
  match packet with
  | .hello identity => (a.update fun s => { s with identity, phase := .connected }).raise .handshake
  | .connected info =>
    (a.update fun s => { s with inNetwork := true, leaveReason := .none })
      |>.raise .joined
      |>.tell (.changed (.arrived info))
  | .syncNetwork info => (a.post none .relay (.syncNetwork info)).tell (.changed (.arrived info))
  | .reject removal => a.update fun s => { s with leaveReason := removal.reason }
  | .rejectReply => a.raise .rejectReply
  | .disconnect _ => a.leave
  | .scanReply info => a.update fun s => { s with networks := s.networks ++ [info] }
  | .scanEnd => a.raise .scanEnd
  | .proxyOffer offer =>
    if sender = a.session.relay then a.joinProxy offer
    else a.atHost fun host => host.apply a.session.clock sender offer
  | .proxyToken token => a.atHost (·.addToken token)
  | .proxyState presence => a.atHost (·.applyPresence presence)
  | .overlayConfig config => a.acceptOverlay config
  | .ping ping => if ping.requester = 0 then a.post none .relay (.ping ping) else a
  | .networkError .portUnreachable => a.update fun s => { s with p2p := false }
  | .networkError error => (a.update fun s => { s with lastError := error }).raise .relayError
  | packet =>
    match Traffic.ofPacket? packet with
    | some traffic => a.tell (.proxied (.message traffic))
    | none => a

/-- A datagram came in and is handled to its end. -/
def receive (a : Act) (sender : Endpoint) (datagram : Bytes) : Act :=
  let datagram := datagram.take receiveLimit
  let seated := match a.session.hosted with
    | some host =>
      let (seated, scene) := host.receive sender datagram
      if seated then some scene else none
    | none => none
  match seated with
  | some scene => a.adopt scene
  | none =>
    let (packets, streams) := reassemble a.session.streams sender datagram
    packets.foldl (fun a packet => a.handle sender packet) (a.update fun s => { s with streams })

/-- A receive failed. A socket that is of no more use ends the loop; other failures count as errors
of the relay. -/
def receiveFailed (a : Act) (error : IoError) : Act :=
  match error.severity with
  | .unrecoverable => a.close .ended
  | .recoverable | .datagramLost => a.raise .relayError

end Act

end LocalPlay.Session
