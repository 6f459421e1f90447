import LocalPlay.Wire.Packet

/-!
# Packets out of a stream of bytes

A sender's packets arrive as pieces of a stream: a piece may end in the middle of a header or a
payload and may hold several packets. A `Reassembly` keeps the bytes of the packet that is not
complete yet and nothing else. Feeding it a piece hands out every packet the piece completes, in
order. A packet of unknown kind is passed over. An error ends the piece: what was held and what is
left of the piece are dropped, the packets before it have been handed out, and the stream starts
afresh.

`readStream` says the same in one go over the whole stream, without pieces; it is what the
reassembler is measured against.
-/

namespace LocalPlay.Wire

/-- A packet with the header it came with. -/
structure Frame where
  header : Header
  packet : Packet
  deriving DecidableEq

/-- A complete packet: a frame, nothing if its kind is unknown, or the error of its payload. -/
def Frame.ofPayload? (header : Header) (payload : Bytes) : Except WireError (Option Frame) :=
  match header.kind? with
  | some kind => (Packet.decode kind payload).map fun packet => some ⟨header, packet⟩
  | none => .ok none

/-- What came out of a stream: the frames completed, the error that ended it, the bytes still
waiting for more. -/
structure Reading where
  frames : List Frame
  error : Option WireError
  pending : Bytes
  deriving DecidableEq

/-- The stream starts with an incomplete packet and waits for more. -/
def Reading.waiting (bytes : Bytes) : Reading := ⟨[], none, bytes⟩

def Reading.failed (error : WireError) : Reading := ⟨[], some error, []⟩

def Reading.after (frame? : Option Frame) (rest : Reading) : Reading :=
  { rest with frames := frame?.toList ++ rest.frames }

/-- Reads a whole stream: wait for a header, check it, wait for its payload, read it, go on. Every
packet is at least a header long, so as many turns as there are bytes are enough. -/
def readStreamWithin : Nat → Bytes → Reading
  | 0, bytes => .waiting bytes
  | turns + 1, bytes =>
    if bytes.length < headerSize then
      .waiting bytes
    else
      let header := Header.layout.decode bytes
      match header.check with
      | .error error => .failed error
      | .ok () =>
        if bytes.length < header.packetSize then
          .waiting bytes
        else
          match Frame.ofPayload? header ((bytes.take header.packetSize).drop headerSize) with
          | .error error => .failed error
          | .ok frame? => .after frame? (readStreamWithin turns (bytes.drop header.packetSize))

def readStream (bytes : Bytes) : Reading :=
  readStreamWithin bytes.length bytes

/-- The bytes of a packet that is not complete yet. -/
structure Reassembly where
  held : Array UInt8 := #[]
  deriving DecidableEq, Inhabited

namespace Reassembly

def empty : Reassembly := {}

/-- How many bytes are held. -/
def pending (r : Reassembly) : Nat := r.held.size

/-- How one turn of the reassembler ends. -/
inductive Turn where
  /-- The piece ran out before the packet was complete. -/
  | waiting (held : Array UInt8)
  | failed (error : WireError)
  /-- A packet is complete, and this is left of the piece. -/
  | complete (frame? : Option Frame) (rest : Bytes)

/-- Completes the header, checks it, completes the payload, each as far as the piece goes. -/
def turn (held : Array UInt8) (piece : Bytes) : Turn :=
  let missing := headerSize - held.size
  let held := held ++ piece.take missing
  let piece := piece.drop missing
  if held.size < headerSize then
    .waiting held
  else
    let header := Header.layout.decode (held.extract 0 headerSize).toList
    match header.check with
    | .error error => .failed error
    | .ok () =>
      let missing := header.packetSize - held.size
      let held := held ++ piece.take missing
      let piece := piece.drop missing
      if held.size < header.packetSize then
        .waiting held
      else
        match Frame.ofPayload? header (held.extract headerSize held.size).toList with
        | .error error => .failed error
        | .ok frame? => .complete frame? piece

/-- What feeding a piece gave: the frames it completed, the error that ended it, and the reassembler
for the next piece. -/
structure Fed where
  frames : List Frame
  error : Option WireError
  next : Reassembly
  deriving DecidableEq, Inhabited

/-- Turns until the piece is used up. Every turn that goes on has used at least one byte. -/
def feedWithin : Nat → Array UInt8 → Bytes → Fed
  | 0, held, _ => ⟨[], none, ⟨held⟩⟩
  | turns + 1, held, piece =>
    if piece.isEmpty then
      ⟨[], none, ⟨held⟩⟩
    else
      match turn held piece with
      | .waiting held => ⟨[], none, ⟨held⟩⟩
      | .failed error => ⟨[], some error, empty⟩
      | .complete frame? rest =>
        let fed := feedWithin turns #[] rest
        { fed with frames := frame?.toList ++ fed.frames }

def feed (r : Reassembly) (piece : Bytes) : Fed :=
  feedWithin piece.length r.held piece

end Reassembly

end LocalPlay.Wire
