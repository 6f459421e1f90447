import LocalPlay.Proofs.Wire.Packet
import LocalPlay.Wire.Stream

/-!
# Pieces do not matter

A stream is read the same however it is cut. The argument looks only at the packet a stream starts
with: `first` says whether it is incomplete, broken, or complete and of which size, and more bytes
change that answer only while it is `incomplete`. `readStream` takes packet after packet off its
stream by this answer, and a turn of the reassembler gives the same answer for what it holds
together with its piece, as long as what it holds is incomplete. That is the invariant: between
pieces a reassembler holds an incomplete packet, `Reassembly.Waits`.
-/

namespace LocalPlay.Wire

/-! ### The packet a stream starts with -/

inductive First where
  | incomplete
  | broken (error : WireError)
  /-- A complete packet of this size, header included. -/
  | packet (frame? : Option Frame) (size : Nat)

def first (bytes : Bytes) : First :=
  if bytes.length < headerSize then
    .incomplete
  else
    let header := Header.layout.decode bytes
    match header.check with
    | .error error => .broken error
    | .ok () =>
      if bytes.length < header.packetSize then
        .incomplete
      else
        match Frame.ofPayload? header ((bytes.take header.packetSize).drop headerSize) with
        | .error error => .broken error
        | .ok frame? => .packet frame? header.packetSize

theorem headerSize_le_packetSize (header : Header) : headerSize ≤ header.packetSize :=
  Nat.le_add_right ..

theorem header_append {bytes : Bytes} (h : headerSize ≤ bytes.length) (tail : Bytes) :
    Header.layout.decode (bytes ++ tail) = Header.layout.decode bytes :=
  Header.lawful_layout.decode_append (Header.size_layout ▸ h) tail

/-- The bytes hold the header and, unless the header is refused, the payload it announces. -/
def Settled (bytes : Bytes) : Prop :=
  headerSize ≤ bytes.length ∧
    ((Header.layout.decode bytes).check = .ok () →
      (Header.layout.decode bytes).packetSize ≤ bytes.length)

theorem first_of_not_settled {bytes : Bytes} (h : ¬ Settled bytes) : first bytes = .incomplete := by
  by_cases hshort : bytes.length < headerSize
  · rw [first, if_pos hshort]
  · rw [Settled, not_and, Classical.not_imp] at h
    obtain ⟨hcheck, hsize⟩ := h (Nat.not_lt.mp hshort)
    simp only [first, if_neg hshort, hcheck, if_pos (Nat.not_le.mp hsize)]

theorem first_ne_of_settled {bytes : Bytes} (h : Settled bytes) : first bytes ≠ .incomplete := by
  obtain ⟨hheader, hpacket⟩ := h
  simp only [first, if_neg (Nat.not_lt.mpr hheader)]
  cases hcheck : (Header.layout.decode bytes).check with
  | error error => exact nofun
  | ok _ =>
    simp only [if_neg (Nat.not_lt.mpr (hpacket hcheck))]
    cases Frame.ofPayload? (Header.layout.decode bytes) _ <;> exact nofun

theorem first_append_of_settled {bytes : Bytes} (h : Settled bytes) (tail : Bytes) :
    first (bytes ++ tail) = first bytes := by
  obtain ⟨hheader, hpacket⟩ := h
  have hlong : ¬ (bytes ++ tail).length < headerSize := by
    rw [List.length_append]
    omega
  simp only [first, if_neg hlong, if_neg (Nat.not_lt.mpr hheader), header_append hheader]
  cases hcheck : (Header.layout.decode bytes).check with
  | error error => rfl
  | ok _ =>
    have hsize := hpacket hcheck
    have hall : ¬ (bytes ++ tail).length < (Header.layout.decode bytes).packetSize := by
      rw [List.length_append]
      omega
    simp only [if_neg hall, if_neg (Nat.not_lt.mpr hsize), List.take_append_of_le_length hsize]

theorem first_append {bytes : Bytes} (h : first bytes ≠ .incomplete) (tail : Bytes) :
    first (bytes ++ tail) = first bytes :=
  first_append_of_settled (Classical.not_not.mp (h ∘ first_of_not_settled)) tail

theorem header_of_first {bytes : Bytes} {frame? : Option Frame} {size : Nat}
    (h : first bytes = .packet frame? size) :
    (Header.layout.decode bytes).check = .ok () ∧ size = (Header.layout.decode bytes).packetSize ∧
      size ≤ bytes.length := by
  rw [first] at h
  split at h
  · exact nomatch h
  · dsimp only at h
    split at h
    · exact nomatch h
    · rename_i hcheck
      split at h
      · exact nomatch h
      · rename_i hlong
        split at h
        · exact nomatch h
        · injection h with _ hsize
          exact ⟨hcheck, hsize.symm, hsize ▸ Nat.not_lt.mp hlong⟩

theorem headerSize_le_of_first {bytes : Bytes} {frame? : Option Frame} {size : Nat}
    (h : first bytes = .packet frame? size) : headerSize ≤ size :=
  (header_of_first h).2.1 ▸ headerSize_le_packetSize _

theorem first_ne_incomplete {bytes tail : Bytes} {frame? : Option Frame} {size : Nat}
    (h : first (bytes ++ tail) = .packet frame? size) (hsize : size ≤ bytes.length) :
    first bytes ≠ .incomplete := by
  have hheader : headerSize ≤ bytes.length := Nat.le_trans (headerSize_le_of_first h) hsize
  obtain ⟨_, hpacket, _⟩ := header_of_first h
  rw [header_append hheader] at hpacket
  rw [← first_append_of_settled ⟨hheader, fun _ => hpacket ▸ hsize⟩ tail, h]
  exact nofun

/-! ### Reading a whole stream -/

theorem readStreamWithin_succ (turns : Nat) (bytes : Bytes) :
    readStreamWithin (turns + 1) bytes = match first bytes with
      | .incomplete => .waiting bytes
      | .broken error => .failed error
      | .packet frame? size => .after frame? (readStreamWithin turns (bytes.drop size)) := by
  rw [readStreamWithin, first]
  split
  · rfl
  · dsimp only
    cases (Header.layout.decode bytes).check with
    | error error => rfl
    | ok _ =>
      dsimp only
      split
      · rfl
      · cases Frame.ofPayload? (Header.layout.decode bytes) _ <;> rfl

/-- Turns beyond one for each byte are never used. -/
theorem readStreamWithin_congr {turns others : Nat} {bytes : Bytes} (hturns : bytes.length ≤ turns)
    (hothers : bytes.length ≤ others) :
    readStreamWithin turns bytes = readStreamWithin others bytes := by
  induction turns generalizing others bytes with
  | zero =>
    obtain rfl := List.length_eq_zero_iff.mp (Nat.le_zero.mp hturns)
    cases others <;> rfl
  | succ turns ih =>
    cases others with
    | zero =>
      obtain rfl := List.length_eq_zero_iff.mp (Nat.le_zero.mp hothers)
      rfl
    | succ others =>
      rw [readStreamWithin_succ, readStreamWithin_succ]
      cases hfirst : first bytes with
      | incomplete => rfl
      | broken error => rfl
      | packet frame? size =>
        have hsize : 0 < size := Nat.lt_of_lt_of_le (by decide) (headerSize_le_of_first hfirst)
        have hlength := List.length_drop (i := size) (l := bytes)
        have hrest : readStreamWithin turns (bytes.drop size) =
            readStreamWithin others (bytes.drop size) := ih (by omega) (by omega)
        simp only [hrest]

theorem readStream_eq (bytes : Bytes) : readStream bytes = match first bytes with
    | .incomplete => .waiting bytes
    | .broken error => .failed error
    | .packet frame? size => .after frame? (readStream (bytes.drop size)) := by
  have hturns : readStream bytes = readStreamWithin (bytes.length + 1) bytes :=
    readStreamWithin_congr (Nat.le_refl _) (Nat.le_succ _)
  rw [hturns, readStreamWithin_succ]
  cases first bytes with
  | incomplete => rfl
  | broken error => rfl
  | packet frame? size =>
    have hlength := List.length_drop (i := size) (l := bytes)
    have hrest : readStreamWithin bytes.length (bytes.drop size) = readStream (bytes.drop size) :=
      readStreamWithin_congr (by omega) (Nat.le_refl _)
    simp only [hrest]

theorem readStream_of_incomplete {bytes : Bytes} (h : first bytes = .incomplete) :
    readStream bytes = .waiting bytes := by
  rw [readStream_eq, h]

/-- Induction over a stream along the packets it is read as. -/
theorem stream_induction {motive : Bytes → Prop}
    (incomplete : ∀ bytes, first bytes = .incomplete → motive bytes)
    (broken : ∀ bytes error, first bytes = .broken error → motive bytes)
    (packet : ∀ bytes frame? size, first bytes = .packet frame? size → motive (bytes.drop size) →
      motive bytes) (bytes : Bytes) : motive bytes := by
  induction hlength : bytes.length using Nat.strongRecOn generalizing bytes with
  | _ length ih =>
    cases hfirst : first bytes with
    | incomplete => exact incomplete bytes hfirst
    | broken error => exact broken bytes error hfirst
    | packet frame? size =>
      apply packet bytes frame? size hfirst
      have hsize : 0 < size := Nat.lt_of_lt_of_le (by decide) (headerSize_le_of_first hfirst)
      obtain ⟨_, _, hbound⟩ := header_of_first hfirst
      have hdrop := List.length_drop (i := size) (l := bytes)
      exact ih (bytes.drop size).length (by omega) (bytes.drop size) rfl

theorem first_pending (bytes : Bytes) : first (readStream bytes).pending = .incomplete := by
  induction bytes using stream_induction with
  | incomplete bytes h =>
    rw [readStream_of_incomplete h]
    exact h
  | broken bytes error h =>
    rw [readStream_eq, h]
    rfl
  | packet bytes frame? size h ih =>
    rw [readStream_eq, h]
    exact ih

theorem pending_of_error {bytes : Bytes} {error : WireError}
    (h : (readStream bytes).error = some error) : (readStream bytes).pending = [] := by
  induction bytes using stream_induction with
  | incomplete bytes hfirst =>
    rw [readStream_of_incomplete hfirst] at h
    exact nomatch h
  | broken bytes _ hfirst =>
    rw [readStream_eq, hfirst]
    rfl
  | packet bytes frame? size hfirst ih =>
    rw [readStream_eq, hfirst] at h ⊢
    exact ih h

/-- Reading on from where a reading stopped, unless an error ended it. -/
def Reading.goOn (reading : Reading) (more : Bytes) : Reading :=
  match reading.error with
  | some _ => reading
  | none =>
    let rest := readStream (reading.pending ++ more)
    { rest with frames := reading.frames ++ rest.frames }

theorem Reading.after_goOn (frame? : Option Frame) (reading : Reading) (more : Bytes) :
    (Reading.after frame? reading).goOn more = .after frame? (reading.goOn more) := by
  obtain ⟨frames, error, pending⟩ := reading
  cases error with
  | some error => rfl
  | none =>
    simp only [goOn, after, List.append_assoc]

theorem readStream_append (left right : Bytes) :
    readStream (left ++ right) = (readStream left).goOn right := by
  induction left using stream_induction with
  | incomplete left h =>
    rw [readStream_of_incomplete h]
    rfl
  | broken left error h =>
    have hfirst : first (left ++ right) = first left := first_append (by rw [h]; exact nofun) right
    rw [readStream_eq (left ++ right), hfirst, readStream_eq left, h]
    rfl
  | packet left frame? size h ih =>
    have hfirst : first (left ++ right) = first left := first_append (by rw [h]; exact nofun) right
    obtain ⟨_, _, hbound⟩ := header_of_first h
    rw [readStream_eq (left ++ right), hfirst, readStream_eq left, h]
    dsimp only
    rw [List.drop_append_of_le_length hbound, ih, Reading.after_goOn]

/-! ### Turns of the reassembler -/

namespace Reassembly

/-- What is held is a packet that is not complete yet. -/
def Waits (r : Reassembly) : Prop :=
  first r.held.toList = .incomplete

theorem waits_empty : empty.Waits := by
  rw [Waits, first, if_pos (by decide)]

theorem toList_extract_size (held : Array UInt8) (start : Nat) :
    (held.extract start held.size).toList = held.toList.drop start := by
  have hlength : (held.toList.drop start).length = held.size - start := by
    rw [List.length_drop, Array.length_toList]
  rw [Array.toList_extract, List.extract_eq_take_drop, List.take_of_length_le]
  exact Nat.le_of_eq hlength

/-- Filling up what is held to a size cuts the whole there. -/
theorem toList_fill {held : Array UInt8} {size : Nat} (h : held.size ≤ size) (piece : Bytes) :
    (held ++ piece.take (size - held.size)).toList = (held.toList ++ piece).take size := by
  have hheld : held.toList.take size = held.toList := List.take_of_length_le (by simpa using h)
  rw [Array.toList_appendList, List.take_append, hheld, Array.length_toList]

theorem size_fill {held : Array UInt8} {size : Nat} (h : held.size ≤ size) (piece : Bytes) :
    (held ++ piece.take (size - held.size)).size = min size (held.toList ++ piece).length := by
  rw [← Array.length_toList, toList_fill h, List.length_take]

theorem drop_fill {held : Array UInt8} {size : Nat} (h : held.size ≤ size) (piece : Bytes) :
    piece.drop (size - held.size) = (held.toList ++ piece).drop size := by
  have hheld : held.toList.drop size = [] := List.drop_of_length_le (by simpa using h)
  rw [List.drop_append, hheld, Array.length_toList, List.nil_append]

theorem decode_extract {held : Array UInt8} (h : headerSize ≤ held.size) (piece : Bytes) :
    Header.layout.decode (held.extract 0 headerSize).toList =
      Header.layout.decode (held.toList ++ piece) := by
  have hstart : (held.extract 0 headerSize).toList = held.toList.take headerSize := by simp
  have hlength : headerSize ≤ (held.toList.take headerSize).length := by
    rw [List.length_take, Array.length_toList]
    omega
  rw [hstart, ← header_append hlength (held.toList.drop headerSize ++ piece), ← List.append_assoc,
    List.take_append_drop]

theorem turn_of_header {held : Array UInt8} (hheader : headerSize ≤ held.size)
    (hsize : (Header.layout.decode held.toList).check = .ok () →
      held.size ≤ (Header.layout.decode held.toList).packetSize) (piece : Bytes) :
    turn held piece = match first (held.toList ++ piece) with
      | .incomplete => .waiting (held.toList ++ piece).toArray
      | .broken error => .failed error
      | .packet frame? size => .complete frame? ((held.toList ++ piece).drop size) := by
  have hmissing : headerSize - held.size = 0 := by omega
  have hlong : ¬ (held.toList ++ piece).length < headerSize := by
    rw [List.length_append, Array.length_toList]
    omega
  have hdecode : Header.layout.decode (held.toList ++ piece) = Header.layout.decode held.toList :=
    header_append (by simpa using hheader) piece
  simp only [turn, hmissing, List.take_zero, List.drop_zero, Array.appendList_nil,
    if_neg (Nat.not_lt.mpr hheader), decode_extract hheader piece, first, if_neg hlong]
  rw [hdecode]
  generalize Header.layout.decode held.toList = header at hsize ⊢
  cases hcheck : header.check with
  | error error => rfl
  | ok _ =>
    have hfill := hsize hcheck
    have hall := toList_fill hfill piece
    have hcount := size_fill hfill piece
    have hpayload : ((held ++ piece.take (header.packetSize - held.size)).extract headerSize
        (held ++ piece.take (header.packetSize - held.size)).size).toList =
        ((held.toList ++ piece).take header.packetSize).drop headerSize := by
      rw [← hall, toList_extract_size]
    dsimp only
    rw [hpayload, drop_fill hfill piece]
    by_cases hshort : (held.toList ++ piece).length < header.packetSize
    · rw [if_pos hshort, if_pos (by omega)]
      congr 1
      apply Array.toList_inj.mp
      rw [hall, List.take_of_length_le (Nat.le_of_lt hshort)]
    · rw [if_neg hshort, if_neg (by omega)]
      cases Frame.ofPayload? header _ <;> rfl

/-- Once the header is there, the rest of the turn is the turn of a reassembler that holds it. -/
theorem turn_fill {held : Array UInt8} {piece : Bytes}
    (hheader : headerSize ≤ (held ++ piece.take (headerSize - held.size)).size) :
    turn held piece =
      turn (held ++ piece.take (headerSize - held.size)) (piece.drop (headerSize - held.size)) := by
  have hnone : headerSize - (held ++ piece.take (headerSize - held.size)).size = 0 := by omega
  rw [turn, turn]
  simp only [hnone, List.take_zero, List.drop_zero, Array.appendList_nil]

/-- A turn answers for what is held and the piece together. -/
theorem turn_eq {held : Array UInt8} (hheld : Waits ⟨held⟩) (piece : Bytes) :
    turn held piece = match first (held.toList ++ piece) with
      | .incomplete => .waiting (held.toList ++ piece).toArray
      | .broken error => .failed error
      | .packet frame? size => .complete frame? ((held.toList ++ piece).drop size) := by
  by_cases hheader : headerSize ≤ held.size
  · apply turn_of_header hheader
    intro hcheck
    apply Nat.le_of_not_le
    intro hsize
    exact first_ne_of_settled ⟨hheader, fun _ => hsize⟩ hheld
  · have hfill : held.size ≤ headerSize := by omega
    have hall := toList_fill hfill piece
    have hcount := size_fill hfill piece
    by_cases hshort : (held.toList ++ piece).length < headerSize
    · rw [turn, first, if_pos hshort, if_pos (by omega)]
      congr 1
      apply Array.toList_inj.mp
      rw [hall, List.take_of_length_le (Nat.le_of_lt hshort)]
    · have hwhole : (held.toList ++ piece).take headerSize ++ piece.drop (headerSize - held.size) =
          held.toList ++ piece := by
        rw [drop_fill hfill, List.take_append_drop]
      rw [turn_fill (by omega), turn_of_header (by omega) (fun _ => ?_), hall, hwhole]
      have := headerSize_le_packetSize (Header.layout.decode
        (held ++ piece.take (headerSize - held.size)).toList)
      omega

/-! ### Feeding -/

def Fed.ofReading (reading : Reading) : Fed :=
  ⟨reading.frames, reading.error, ⟨reading.pending.toArray⟩⟩

theorem size_lt_of_waits {held : Array UInt8} (hheld : Waits ⟨held⟩) {piece : Bytes}
    {frame? : Option Frame} {size : Nat} (h : first (held.toList ++ piece) = .packet frame? size) :
    held.size < size := by
  apply Nat.lt_of_not_le
  intro hsize
  exact first_ne_incomplete h (by simpa using hsize) hheld

theorem feedWithin_eq {turns : Nat} {held : Array UInt8} (hheld : Waits ⟨held⟩) {piece : Bytes}
    (hturns : piece.length ≤ turns) :
    feedWithin turns held piece = .ofReading (readStream (held.toList ++ piece)) := by
  have hnothing : Fed.ofReading (readStream (held.toList ++ [])) = ⟨[], none, ⟨held⟩⟩ := by
    rw [List.append_nil, readStream_of_incomplete hheld]
    rfl
  induction turns generalizing held piece with
  | zero =>
    obtain rfl := List.length_eq_zero_iff.mp (Nat.le_zero.mp hturns)
    rw [hnothing, feedWithin]
  | succ turns ih =>
    rw [feedWithin]
    by_cases hempty : piece = []
    · rw [if_pos (List.isEmpty_iff.mpr hempty), hempty, hnothing]
    · rw [if_neg (hempty ∘ List.isEmpty_iff.mp), turn_eq hheld, readStream_eq]
      cases hfirst : first (held.toList ++ piece) with
      | incomplete => rfl
      | broken error => rfl
      | packet frame? size =>
        -- The packet is longer than what was held, so some of the piece went into it.
        have hsize := size_lt_of_waits hheld hfirst
        have hlength : ((held.toList ++ piece).drop size).length ≤ turns := by
          rw [List.length_drop, List.length_append, Array.length_toList]
          omega
        have hrest := ih waits_empty hlength (by rfl)
        dsimp only
        rw [hrest]
        rfl

theorem feed_eq {r : Reassembly} (h : r.Waits) (piece : Bytes) :
    r.feed piece = .ofReading (readStream (r.held.toList ++ piece)) :=
  feedWithin_eq h (Nat.le_refl _)

theorem waits_feed {r : Reassembly} (h : r.Waits) (piece : Bytes) : (r.feed piece).next.Waits := by
  rw [feed_eq h]
  exact first_pending _

/-- Feeds piece after piece, up to the first that fails. -/
def feedAll (r : Reassembly) : List Bytes → Fed
  | [] => ⟨[], none, r⟩
  | piece :: rest =>
    let fed := r.feed piece
    if fed.error.isSome then
      fed
    else
      let more := fed.next.feedAll rest
      { more with frames := fed.frames ++ more.frames }

theorem feedAll_eq {r : Reassembly} (h : r.Waits) (pieces : List Bytes) :
    r.feedAll pieces = .ofReading (readStream (r.held.toList ++ pieces.flatten)) := by
  induction pieces generalizing r with
  | nil =>
    rw [feedAll, List.flatten_nil, List.append_nil, readStream_of_incomplete h]
    rfl
  | cons piece rest ih =>
    rw [feedAll, ih (waits_feed h piece), List.flatten_cons, ← List.append_assoc,
      readStream_append (r.held.toList ++ piece), feed_eq h]
    obtain ⟨frames, error, pending⟩ := readStream (r.held.toList ++ piece)
    cases error <;> rfl

/-- Feeding on where feeding stopped, unless an error ended it. -/
def Fed.goOn (fed : Fed) (pieces : List Bytes) : Fed :=
  if fed.error.isSome then
    fed
  else
    let more := fed.next.feedAll pieces
    { more with frames := fed.frames ++ more.frames }

theorem feedAll_cons (r : Reassembly) (piece : Bytes) (pieces : List Bytes) :
    r.feedAll (piece :: pieces) = (r.feed piece).goOn pieces :=
  rfl

theorem Fed.goOn_append (fed : Fed) (pieces more : List Bytes)
    (happend : fed.next.feedAll (pieces ++ more) = (fed.next.feedAll pieces).goOn more) :
    fed.goOn (pieces ++ more) = (fed.goOn pieces).goOn more := by
  cases herror : fed.error.isSome with
  | true => simp [goOn, herror]
  | false =>
    cases hmore : (fed.next.feedAll pieces).error.isSome with
    | true => simp [goOn, herror, happend, hmore]
    | false => simp [goOn, herror, happend, hmore]

theorem feedAll_append (r : Reassembly) (pieces more : List Bytes) :
    r.feedAll (pieces ++ more) = (r.feedAll pieces).goOn more := by
  induction pieces generalizing r with
  | nil => simp [feedAll, Fed.goOn]
  | cons piece rest ih =>
    rw [List.cons_append, feedAll_cons, feedAll_cons]
    exact Fed.goOn_append _ _ _ (ih _)

theorem feedAll_singleton (r : Reassembly) (piece : Bytes) : r.feedAll [piece] = r.feed piece := by
  rw [feedAll_cons, Fed.goOn]
  generalize r.feed piece = fed
  obtain ⟨frames, error, next⟩ := fed
  cases error with
  | some error => rfl
  | none => simp [feedAll]

theorem feedAll_concat {r : Reassembly} {pieces : List Bytes}
    (h : (r.feedAll pieces).error = none) (piece : Bytes) :
    r.feedAll (pieces ++ [piece]) =
      { (r.feedAll pieces).next.feed piece with
        frames := (r.feedAll pieces).frames ++ ((r.feedAll pieces).next.feed piece).frames } := by
  rw [feedAll_append, Fed.goOn, h, feedAll_singleton]
  rfl

/-- What was handed out stays handed out. -/
theorem frames_feedAll_isPrefix (r : Reassembly) {pieces more : List Bytes} (h : pieces <+: more) :
    (r.feedAll pieces).frames <+: (r.feedAll more).frames := by
  obtain ⟨rest, rfl⟩ := h
  rw [feedAll_append, Fed.goOn]
  split
  · exact List.prefix_rfl
  · exact List.prefix_append _ _

/-- What can become of a new reassembler. -/
inductive Reachable : Reassembly → Prop where
  | new : Reachable empty
  | feed {r : Reassembly} (piece : Bytes) : r.Reachable → Reachable (r.feed piece).next
  | reset {r : Reassembly} : r.Reachable → Reachable empty

theorem Reachable.waits {r : Reassembly} (h : r.Reachable) : r.Waits := by
  induction h with
  | new => exact waits_empty
  | feed piece _ ih => exact waits_feed ih piece
  | reset _ _ => exact waits_empty

/-- However a stream is cut into pieces, feeding them up to the first that fails hands out the
frames that reading the whole stream at once finds, meets the same error, and is left with the same
bytes; after an error nothing is left and the reassembler is as good as new. -/
theorem feedAll_eq_readStream {r : Reassembly} (h : r.Reachable) (pieces : List Bytes) :
    let fed := r.feedAll pieces
    let reading := readStream (r.held.toList ++ pieces.flatten)
    fed.frames = reading.frames ∧ fed.error = reading.error ∧
      (fed.error = none → fed.next.held.toList = reading.pending) ∧
      (fed.error ≠ none → fed.next = empty) := by
  rw [feedAll_eq h.waits]
  refine ⟨rfl, rfl, fun _ => rfl, fun herror => ?_⟩
  obtain ⟨error, herror⟩ := Option.ne_none_iff_exists'.mp herror
  rw [Fed.ofReading, pending_of_error herror]
  rfl

/-- A header cut after two bytes, a ping cut in two, and a stray byte in front of a header. -/
theorem feedAll_after_two_bytes :
    let r := (empty.feed [82, 76]).next
    let fed := r.feedAll [[68, 78, 0, 0, 0, 0, 0, 12, 1, 0, 0, 0, 0, 82, 76, 68, 78],
      [0, 0, 0, 0, 0, 253], [1, 2, 0, 0, 0, 7, 9],
      [1, 82, 76, 68, 78, 0, 0, 0, 0, 0, 12, 1, 0, 0, 0, 0]]
    r.Reachable ∧ fed.frames.map (·.packet) = [.scanEnd, .ping ⟨7, 9⟩] ∧
      fed.error = some (.badMagic 0x444C5201) ∧ fed.next = empty := by
  intro r fed
  have hreachable : r.Reachable := .feed [82, 76] .new
  obtain ⟨hframes, herror, _, hempty⟩ := feedAll_eq_readStream hreachable
    [[68, 78, 0, 0, 0, 0, 0, 12, 1, 0, 0, 0, 0, 82, 76, 68, 78], [0, 0, 0, 0, 0, 253],
      [1, 2, 0, 0, 0, 7, 9], [1, 82, 76, 68, 78, 0, 0, 0, 0, 0, 12, 1, 0, 0, 0, 0]]
  have hmagic : fed.error = some (.badMagic 0x444C5201) := herror.trans (by decide)
  refine ⟨hreachable, ?_, hmagic, hempty ?_⟩
  · rw [hframes]
    decide
  · rw [hmagic]
    exact nofun

end Reassembly

end LocalPlay.Wire
