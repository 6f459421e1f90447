import LocalPlay.Proofs.Wire.Acceptance

/-!
# A reassembler stays within its bounds

`Reassembly.turn` cannot go wrong by the way it is written: a difference stops at zero, a cut behind
the end gives what there is, and a header is read from however few bytes. `Checked.feedFrom` is the
same loop with a look before each of these steps. Sums have to fit a word of 64 bits, differences
must not be negative, cuts have to be within what is cut, and a header needs all of its bytes. A lap
that takes nothing off the piece is refused as well, and so the loop needs no count of its laps.

A reassembler that started empty is never refused anything. Between pieces it waits: the header it
holds, if it holds one, was let pass and announces more bytes than are held (`within_of_waits`). So
a lap has room for at least one more byte, and it ends as the turn does (`exists_lap`). Nothing less
would do: with a settled packet held, whatever comes next is refused (`exists_feedFrom_iff_waits`).
-/

namespace LocalPlay.Wire.Reassembly

/-! ### The loop with every step checked -/

/-- A step that is not possible. -/
inductive Slip where
  /-- A sum beyond the largest word. -/
  | overflow (left right : Nat)
  /-- A difference below zero. -/
  | underflow (left right : Nat)
  /-- A cut behind the end. -/
  | outOfRange (place length : Nat)
  /-- A header without all of its bytes. -/
  | headerless (error : WireError)
  /-- A lap of the loop that takes nothing off the piece. -/
  | idle
  deriving DecidableEq

/-- Where a lap of the loop leads. -/
inductive Lead where
  /-- Back to the head of the loop. -/
  | onward (held : Array UInt8) (frame? : Option Frame)
  /-- Out of the loop, in the middle of a header. -/
  | short (held : Array UInt8)
  /-- Out of the loop, with nothing held. -/
  | failed (error : WireError)
  deriving DecidableEq

/-- What a lap leaves of the piece, and where it leads. -/
structure Lap where
  rest : Bytes
  lead : Lead
  deriving DecidableEq

namespace Checked

def sum (left right : Nat) : Except Slip Nat :=
  if left + right < 2 ^ 64 then .ok (left + right) else .error (.overflow left right)

def difference (left right : Nat) : Except Slip Nat :=
  if right ≤ left then .ok (left - right) else .error (.underflow left right)

def cut (bytes : Bytes) (place : Nat) : Except Slip (Bytes × Bytes) :=
  if place ≤ bytes.length then
    .ok (bytes.take place, bytes.drop place)
  else
    .error (.outOfRange place bytes.length)

/-- Moves bytes off the piece until `size` of them are held or the piece is used up. -/
def fill (held : Array UInt8) (piece : Bytes) (size : Nat) : Except Slip (Array UInt8 × Bytes) := do
  let missing ← difference size held.size
  let (front, rest) ← cut piece (min piece.length missing)
  return (held ++ front, rest)

/-- What a complete packet holds. The fixed part of a payload that was read is cut off its tail. -/
def unpack (header : Header) (held : Array UInt8) :
    Except Slip (Except WireError (Option Frame)) := do
  let (_, payload) ← cut held.toList headerSize
  let unpacked := Frame.ofPayload? header payload
  match unpacked with
  | .ok (some frame) =>
    let _ ← cut payload frame.packet.kind.fixedSize
    return unpacked
  | _ => return unpacked

/-- A lap from where there are enough bytes for a header. -/
def lapBehindHeader (held : Array UInt8) (piece : Bytes) : Except Slip Lap := do
  match Header.layout.read held.toList with
  | .error error => throw (.headerless error)
  | .ok header =>
    let size ← sum headerSize header.payloadSize.toNat
    match header.check with
    | .error error => return ⟨piece, .failed error⟩
    | .ok () =>
      let (held, rest) ← fill held piece size
      if held.size = size then
        match ← unpack header held with
        | .error error => return ⟨rest, .failed error⟩
        | .ok frame? => return ⟨rest, .onward #[] frame?⟩
      else
        return ⟨rest, .onward held none⟩

def lap (held : Array UInt8) (piece : Bytes) : Except Slip Lap := do
  let (held, rest) ←
    if held.size < headerSize then fill held piece headerSize else .ok (held, piece)
  if held.size < headerSize then
    return ⟨rest, .short held⟩
  else
    lapBehindHeader held rest

/-- Laps as long as something is left of the piece. -/
def feedFrom (held : Array UInt8) (piece : Bytes) : Except Slip Fed :=
  if piece.isEmpty then
    .ok ⟨[], none, ⟨held⟩⟩
  else
    match lap held piece with
    | .error slip => .error slip
    | .ok ⟨rest, lead⟩ =>
      if rest.length < piece.length then
        match lead with
        | .onward held frame? =>
          (feedFrom held rest).map fun fed => { fed with frames := frame?.toList ++ fed.frames }
        | .short held => .ok ⟨[], none, ⟨held⟩⟩
        | .failed error => .ok ⟨[], some error, empty⟩
      else
        .error .idle
termination_by piece.length

end Checked

/-! ### No step is refused -/

/-- The lap leads where the turn ends. -/
def Lap.EndsAs (lap : Lap) : Turn → Prop
  | .waiting held => lap.rest = [] ∧ (lap.lead = .short held ∨ lap.lead = .onward held none)
  | .failed error => lap.lead = .failed error
  | .complete frame? rest => lap = ⟨rest, .onward #[] frame?⟩

theorem Checked.cut_eq {bytes : Bytes} {place : Nat} (h : place ≤ bytes.length) :
    cut bytes place = .ok (bytes.take place, bytes.drop place) :=
  if_pos h

theorem Checked.fill_eq {held : Array UInt8} {size : Nat} (h : held.size ≤ size) (piece : Bytes) :
    fill held piece size =
      .ok (held ++ piece.take (size - held.size), piece.drop (size - held.size)) := by
  have hmissing : difference size held.size = .ok (size - held.size) := if_pos h
  have hcut := cut_eq (Nat.min_le_left piece.length (size - held.size))
  rw [Nat.min_comm, ← List.take_eq_take_min, ← List.drop_eq_drop_min, Nat.min_comm] at hcut
  simp only [fill, hmissing, bind, Except.bind, hcut, pure, Except.pure]

theorem fixedSize_le_of_ofPayload {header : Header} {payload : Bytes} {frame : Frame}
    (h : Frame.ofPayload? header payload = .ok (some frame)) :
    frame.packet.kind.fixedSize ≤ payload.length := by
  rw [Frame.ofPayload?] at h
  cases hkind : header.kind? with
  | none => simp [hkind] at h
  | some kind =>
    cases hdecode : Packet.decode kind payload with
    | error error => simp [hkind, hdecode, Except.map] at h
    | ok packet =>
      simp only [hkind, hdecode, Except.map, Except.ok.injEq, Option.some.injEq] at h
      subst h
      rw [Packet.kind_of_decode hdecode]
      exact Packet.decode_eq_ok_iff.mp ⟨packet, hdecode⟩

theorem Checked.unpack_eq {held : Array UInt8} (h : headerSize ≤ held.size) (header : Header) :
    unpack header held = .ok (Frame.ofPayload? header (held.toList.drop headerSize)) := by
  have hcut : cut held.toList headerSize = _ := cut_eq (by simpa using h)
  simp only [unpack, hcut, bind, Except.bind, pure, Except.pure]
  cases hframe : Frame.ofPayload? header (held.toList.drop headerSize) with
  | error error => rfl
  | ok frame? =>
    cases frame? with
    | none => rfl
    | some frame => simp only [cut_eq (fixedSize_le_of_ofPayload hframe)]

theorem read_of_held {held : Array UInt8} (hheader : headerSize ≤ held.size) :
    Header.layout.read held.toList = .ok (Header.layout.decode held.toList) := by
  apply Layout.read_of_long
  rw [Header.size_layout, Array.length_toList]
  exact hheader

/-- No payload is so large that the size of its packet leaves the word. -/
theorem Checked.sum_packetSize (header : Header) :
    sum headerSize header.payloadSize.toNat = .ok header.packetSize := by
  have hword := header.payloadSize.toNat_lt
  apply if_pos
  rw [headerSize]
  omega

/-- The piece was used up before there were enough bytes. -/
theorem drop_eq_nil_of_short {held : Array UInt8} {size : Nat} {piece : Bytes}
    (hfill : held.size ≤ size) (hshort : (held ++ piece.take (size - held.size)).size < size) :
    piece.drop (size - held.size) = [] := by
  rw [size_fill hfill, List.length_append, Array.length_toList] at hshort
  apply List.drop_eq_nil_of_le
  omega

theorem length_drop_lt {held : Array UInt8} {size : Nat} {piece : Bytes} (hroom : held.size < size)
    (hpiece : piece ≠ []) : (piece.drop (size - held.size)).length < piece.length := by
  have hsome := List.length_pos_iff.mpr hpiece
  rw [List.length_drop]
  omega

/-- A header that is held has been let pass, and there is room for more bytes of its packet. -/
theorem room_of_waits {held : Array UInt8} (hheld : Waits ⟨held⟩)
    (hheader : headerSize ≤ held.size) :
    (Header.layout.decode held.toList).check = .ok () ∧
      held.size < (Header.layout.decode held.toList).packetSize := by
  have hsettled : ¬ Settled held.toList := fun h => first_ne_of_settled h hheld
  rw [Settled, not_and, Classical.not_imp, Array.length_toList, Nat.not_le] at hsettled
  exact hsettled hheader

/-- Behind the header a lap ends as the turn does. It takes something off the piece if the packet is
not complete yet. -/
theorem exists_lapBehindHeader {held : Array UInt8} (hheader : headerSize ≤ held.size)
    (hroom : (Header.layout.decode held.toList).check = .ok () →
      held.size ≤ (Header.layout.decode held.toList).packetSize) (piece : Bytes) :
    ∃ lap, Checked.lapBehindHeader held piece = .ok lap ∧ lap.EndsAs (turn held piece) ∧
      lap.rest.length ≤ piece.length ∧
      ((Header.layout.decode held.toList).check = .ok () →
        held.size < (Header.layout.decode held.toList).packetSize → piece ≠ [] →
        lap.rest.length < piece.length) := by
  have hnone : headerSize - held.size = 0 := by omega
  have hdecode : Header.layout.decode (held.extract 0 headerSize).toList =
      Header.layout.decode held.toList := by
    simpa using decode_extract hheader []
  simp only [Checked.lapBehindHeader, read_of_held hheader, Checked.sum_packetSize, bind,
    Except.bind, turn, hnone, List.take_zero, List.drop_zero, Array.appendList_nil,
    if_neg (Nat.not_lt.mpr hheader), hdecode]
  -- Lap and turn now ask the same header, and differ in their checks only.
  generalize Header.layout.decode held.toList = header at hroom ⊢
  cases hcheck : header.check with
  | error error =>
    refine ⟨_, rfl, rfl, Nat.le_refl _, ?_⟩
    intro hpassed
    cases hpassed
  | ok _ =>
    have hfill := hroom hcheck
    have hcount := size_fill hfill piece
    have hlong : headerSize ≤ (held ++ piece.take (header.packetSize - held.size)).size := by
      have := headerSize_le_packetSize header
      rw [List.length_append, Array.length_toList] at hcount
      omega
    have hle : (piece.drop (header.packetSize - held.size)).length ≤ piece.length := by
      simp
    simp only [Checked.fill_eq hfill, Checked.unpack_eq hlong]
    by_cases hshort : (held ++ piece.take (header.packetSize - held.size)).size < header.packetSize
    · rw [if_neg (Nat.ne_of_lt hshort), if_pos hshort]
      have hused := drop_eq_nil_of_short hfill hshort
      exact ⟨_, rfl, ⟨hused, .inr rfl⟩, hle, fun _ => length_drop_lt⟩
    · rw [if_pos (by omega), if_neg hshort, toList_extract_size]
      cases Frame.ofPayload? header _ with
      | error error => exact ⟨_, rfl, rfl, hle, fun _ => length_drop_lt⟩
      | ok frame? => exact ⟨_, rfl, rfl, hle, fun _ => length_drop_lt⟩

/-- A reassembler that waits finishes its next lap, which ends as the turn does and takes at least
one byte off the piece. -/
theorem exists_lap {held : Array UInt8} (hheld : Waits ⟨held⟩) {piece : Bytes}
    (hpiece : piece ≠ []) :
    ∃ lap, Checked.lap held piece = .ok lap ∧ lap.EndsAs (turn held piece) ∧
      lap.rest.length < piece.length := by
  by_cases hheader : headerSize ≤ held.size
  · obtain ⟨hcheck, hroom⟩ := room_of_waits hheld hheader
    obtain ⟨lap, hlap, hends, -, hless⟩ :=
      exists_lapBehindHeader hheader (fun _ => Nat.le_of_lt hroom) piece
    refine ⟨lap, ?_, hends, hless hcheck hroom hpiece⟩
    simp only [Checked.lap, if_neg (Nat.not_lt.mpr hheader), bind, Except.bind, hlap]
  · have hmissing : held.size < headerSize := Nat.not_le.mp hheader
    have hfill := Nat.le_of_lt hmissing
    have hless := length_drop_lt hmissing hpiece
    simp only [Checked.lap, if_pos hmissing, Checked.fill_eq hfill, bind, Except.bind]
    by_cases hshort : (held ++ piece.take (headerSize - held.size)).size < headerSize
    · rw [if_pos hshort]
      refine ⟨_, rfl, ?_, hless⟩
      simp only [turn, if_pos hshort]
      exact ⟨drop_eq_nil_of_short hfill hshort, .inl rfl⟩
    · have hfull : (held ++ piece.take (headerSize - held.size)).size = headerSize := by
        have hcount := size_fill hfill piece
        omega
      obtain ⟨lap, hlap, hends, hle, -⟩ := exists_lapBehindHeader (Nat.le_of_eq hfull.symm)
        (fun _ => Nat.le_trans (Nat.le_of_eq hfull) (headerSize_le_packetSize _))
        (piece.drop (headerSize - held.size))
      rw [if_neg hshort, turn_fill (Nat.le_of_eq hfull.symm)]
      exact ⟨lap, hlap, hends, Nat.lt_of_le_of_lt hle hless⟩

/-! ### The whole loop -/

theorem Checked.feedFrom_nil (held : Array UInt8) : feedFrom held [] = .ok ⟨[], none, ⟨held⟩⟩ := by
  rw [feedFrom]
  rfl

/-- One turn for each byte of the piece is enough for all laps: each leaves less of the piece, and
those after the first start empty. -/
theorem feedFrom_eq {turns : Nat} {held : Array UInt8} (hheld : Waits ⟨held⟩) {piece : Bytes}
    (hturns : piece.length ≤ turns) :
    Checked.feedFrom held piece = .ok (feedWithin turns held piece) := by
  induction turns generalizing held piece with
  | zero =>
    obtain rfl := List.length_eq_zero_iff.mp (Nat.le_zero.mp hturns)
    exact Checked.feedFrom_nil held
  | succ turns ih =>
    by_cases hempty : piece = []
    · subst hempty
      exact Checked.feedFrom_nil held
    · obtain ⟨⟨rest, lead⟩, hlap, hends, hless⟩ := exists_lap hheld hempty
      have hsome : ¬ piece.isEmpty = true := hempty ∘ List.isEmpty_iff.mp
      rw [Checked.feedFrom, if_neg hsome, hlap, feedWithin, if_neg hsome]
      dsimp only at hless ⊢
      rw [if_pos hless]
      cases hturn : turn held piece with
      | waiting next =>
        rw [hturn] at hends
        obtain ⟨rfl, rfl | rfl⟩ := hends
        · rfl
        · -- The payload is not complete: back to the head of the loop, where the piece is used up.
          dsimp only
          rw [Checked.feedFrom_nil]
          rfl
      | failed error =>
        rw [hturn] at hends
        obtain rfl : lead = .failed error := hends
        rfl
      | complete frame? next =>
        rw [hturn] at hends
        obtain ⟨rfl, rfl⟩ := Lap.mk.inj hends
        have hrest : Checked.feedFrom #[] rest = .ok (feedWithin turns #[] rest) :=
          ih waits_empty (by omega)
        dsimp only
        rw [hrest]
        rfl

/-- With a settled packet held, a lap is refused or takes nothing off the piece. -/
theorem rest_of_settled {held : Array UInt8} (hsettled : Settled held.toList) {piece : Bytes}
    {lap : Lap} (hlap : Checked.lap held piece = .ok lap) : lap.rest = piece := by
  obtain ⟨hheader, hpacket⟩ := hsettled
  rw [Array.length_toList] at hheader hpacket
  simp only [Checked.lap, if_neg (Nat.not_lt.mpr hheader), bind, Except.bind,
    Checked.lapBehindHeader, read_of_held hheader, Checked.sum_packetSize] at hlap
  generalize Header.layout.decode held.toList = header at hpacket hlap
  cases hcheck : header.check with
  | error error =>
    rw [hcheck] at hlap
    cases hlap
    rfl
  | ok _ =>
    have hfull := hpacket hcheck
    simp only [hcheck] at hlap
    by_cases hsize : held.size = header.packetSize
    · have hnone : header.packetSize - held.size = 0 := by omega
      simp only [Checked.fill_eq (Nat.le_of_eq hsize), hnone, List.take_zero, List.drop_zero,
        Array.appendList_nil, if_pos hsize, Checked.unpack_eq hheader] at hlap
      cases hframe : Frame.ofPayload? header (held.toList.drop headerSize) with
      | error error =>
        rw [hframe] at hlap
        cases hlap
        rfl
      | ok frame? =>
        rw [hframe] at hlap
        cases hlap
        rfl
    · have hmissing : Checked.difference header.packetSize held.size =
          .error (.underflow header.packetSize held.size) := if_neg (by omega)
      simp only [Checked.fill, hmissing, bind, Except.bind] at hlap
      cases hlap

/-- The loop is refused nothing exactly if the packet that is held is incomplete. -/
theorem exists_feedFrom_iff_waits {held : Array UInt8} {piece : Bytes} (hpiece : piece ≠ []) :
    (∃ fed, Checked.feedFrom held piece = .ok fed) ↔ Waits ⟨held⟩ := by
  constructor
  · intro ⟨fed, hfed⟩
    apply first_of_not_settled
    intro hsettled
    have hsome : ¬ piece.isEmpty = true := hpiece ∘ List.isEmpty_iff.mp
    rw [Checked.feedFrom, if_neg hsome] at hfed
    cases hlap : Checked.lap held piece with
    | error slip =>
      rw [hlap] at hfed
      cases hfed
    | ok lap =>
      have hrest := rest_of_settled hsettled hlap
      rw [hlap] at hfed
      simp only [hrest, Nat.lt_irrefl, if_false] at hfed
      cases hfed
  · intro hheld
    exact ⟨_, feedFrom_eq hheld (Nat.le_refl _)⟩

/-- A ping with a byte too many, and one that is just complete. -/
example :
    Checked.feedFrom #[82, 76, 68, 78, 0, 0, 0, 0, 0, 253, 1, 2, 0, 0, 0, 7, 9, 1] [3] =
      .error (.underflow 17 18) ∧
    Checked.feedFrom #[82, 76, 68, 78, 0, 0, 0, 0, 0, 253, 1, 2, 0, 0, 0, 7, 9] [3] =
      .error .idle := by
  rw [Checked.feedFrom, Checked.feedFrom]
  exact ⟨rfl, rfl⟩

/-! ### Between pieces -/

theorem within_of_waits {r : Reassembly} (h : r.Waits) :
    r.pending < headerSize ∨ ∃ header, Header.layout.read r.held.toList = .ok header ∧
      header.check = .ok () ∧ r.pending < header.packetSize := by
  by_cases hshort : r.pending < headerSize
  · exact .inl hshort
  · have hheader : headerSize ≤ r.held.size := Nat.not_lt.mp hshort
    exact .inr ⟨_, read_of_held hheader, room_of_waits h hheader⟩

/-- After any calls a reassembler holds less than a header, or a header that was let pass and less
than the packet it announces, and so less than the limit. Whatever it is fed next, the loop with
every step checked finishes and gives what the reassembler gives: no sum leaves the word, no
difference is negative, no header is read from too few bytes, no cut is behind the end, and every
lap takes at least one byte off the piece. So one turn for each byte is all that is ever needed. -/
theorem feeds_within_bounds {r : Reassembly} (h : r.Reachable) :
    (r.pending < 15 ∨ ∃ header, Header.layout.read r.held.toList = .ok header ∧
      header.check = .ok () ∧ r.pending < header.packetSize) ∧
    r.pending < 131072 ∧
    ∀ piece : Bytes, Checked.feedFrom r.held piece = .ok (r.feed piece) ∧
      ∀ turns, piece.length ≤ turns → feedWithin turns r.held piece = r.feed piece := by
  have hwithin := within_of_waits h.waits
  refine ⟨hwithin, ?_, fun piece => ⟨feedFrom_eq h.waits (Nat.le_refl _), fun turns hturns => ?_⟩⟩
  · obtain hshort | ⟨header, -, hcheck, hroom⟩ := hwithin
    · exact Nat.lt_trans hshort (by decide)
    · obtain ⟨-, -, hsmall⟩ := header.check_eq_ok_iff.mp hcheck
      exact Nat.lt_trans hroom hsmall
  · rw [feedWithin_eq h.waits hturns, feed_eq h.waits]

/-- A ping that lacks its last byte; then this byte, an empty packet of unknown kind, a header that
announces one byte too many, and two bytes more. -/
theorem feeds_within_bounds_of_cut_ping :
    let r := (empty.feed [82, 76, 68, 78, 0, 0, 0, 0, 0, 253, 1, 2, 0, 0, 0, 7]).next
    let header : Header := ⟨0x4E444C52, 0, false, 253, 1, 2⟩
    r.Reachable ∧ r.pending = 16 ∧
      (∃ held, Header.layout.read r.held.toList = .ok held ∧ held.check = .ok () ∧
        16 < held.packetSize) ∧
      Checked.feedFrom r.held [9, 82, 76, 68, 78, 0, 0, 0, 0, 0, 100, 1, 0, 0, 0, 0,
        82, 76, 68, 78, 0, 0, 0, 0, 0, 20, 1, 241, 255, 1, 0, 3, 3] =
          .ok ⟨[⟨header, .ping ⟨7, 9⟩⟩], some (.packetTooLarge 131072), empty⟩ := by
  intro r header
  have hreachable : r.Reachable := .feed _ .new
  have hpending : r.pending = 16 := by decide
  obtain ⟨hwithin, -, hfeed⟩ := feeds_within_bounds hreachable
  refine ⟨hreachable, hpending, ?_, ?_⟩
  · rw [← hpending]
    exact hwithin.resolve_left (by rw [hpending]; decide)
  · exact (hfeed _).1.trans (congrArg Except.ok (by decide))

end LocalPlay.Wire.Reassembly
