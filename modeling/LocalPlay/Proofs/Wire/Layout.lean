import LocalPlay.Wire.Layout
import Mathlib.Algebra.Group.Nat.Defs

/-!
# Laws of layouts

A layout is lawful if its encodings have its size and read back as what was written, and if reading
looks at nothing past its size. The leaves are lawful, and `pair` and `map` keep it, so a message is
lawful by the way it is put together; no proof about a message opens the bytes.
-/

namespace LocalPlay

namespace Bytes

theorem ofLittleEndian_littleEndian (width number : Nat) :
    ofLittleEndian (littleEndian width number) = number % 256 ^ width := by
  induction width generalizing number with
  | zero => simp [littleEndian, ofLittleEndian, Nat.mod_one]
  | succ width ih =>
    have hbyte : (UInt8.ofNat (number % 256)).toNat = number % 256 := by
      rw [UInt8.toNat_ofNat']
      exact Nat.mod_eq_of_lt (Nat.mod_lt _ (by decide))
    rw [littleEndian, ofLittleEndian, ih, hbyte, Nat.pow_succ', Nat.mod_mul]

theorem fit_of_length {n : Nat} {bytes : Bytes} (h : bytes.length = n) : fit n bytes = bytes := by
  simp [fit, ← h]

theorem fit_append {n : Nat} {bytes : Bytes} (h : n ≤ bytes.length) (tail : Bytes) :
    fit n (bytes ++ tail) = fit n bytes := by
  simp [fit, List.take_append_of_le_length h]

end Bytes

namespace Block

theorem ofBytes_bytes {n : Nat} (block : Block n) : ofBytes block.bytes = block :=
  Block.ext (Bytes.fit_of_length block.length_bytes)

end Block

namespace Wire.Layout

variable {α β : Type}

structure Lawful (layout : Layout α) : Prop where
  length_encode : ∀ value, (layout.encode value).length = layout.size
  decode_encode : ∀ value, layout.decode (layout.encode value) = value
  decode_append : ∀ {bytes : Bytes}, layout.size ≤ bytes.length →
    ∀ tail, layout.decode (bytes ++ tail) = layout.decode bytes

namespace Lawful

theorem decode_encode_append {layout : Layout α} (h : layout.Lawful) (value : α) (tail : Bytes) :
    layout.decode (layout.encode value ++ tail) = value := by
  rw [h.decode_append (Nat.le_of_eq (h.length_encode value).symm), h.decode_encode]

theorem read_encode_append {layout : Layout α} (h : layout.Lawful) (value : α) (tail : Bytes) :
    layout.read (layout.encode value ++ tail) = .ok value := by
  have hlong : ¬ (layout.encode value ++ tail).length < layout.size := by
    rw [List.length_append, h.length_encode]
    omega
  rw [read, if_neg hlong, h.decode_encode_append]

theorem read_encode {layout : Layout α} (h : layout.Lawful) (value : α) :
    layout.read (layout.encode value) = .ok value := by
  simpa using h.read_encode_append value []

theorem readWithTail_encode_append {layout : Layout α} (h : layout.Lawful) (value : α)
    (tail : Bytes) : layout.readWithTail (layout.encode value ++ tail) = .ok (value, tail) := by
  rw [readWithTail, h.read_encode_append, Except.map, List.drop_left' (h.length_encode value)]

end Lawful

/-! ### Putting layouts together -/

theorem foldr_width (slots : List Slot) (start : Nat) :
    slots.foldr (·.width + ·) start = slots.foldr (·.width + ·) 0 + start := by
  induction slots with
  | nil => simp
  | cons slot slots ih =>
    rw [List.foldr_cons, List.foldr_cons, ih]
    omega

@[simp] theorem size_pair (first : Layout α) (second : Layout β) :
    (first.pair second).size = first.size + second.size := by
  rw [size, pair, List.foldr_append, foldr_width]
  rfl

@[simp] theorem size_map (layout : Layout α) (build : α → β) (split : β → α) :
    (layout.map build split).size = layout.size := rfl

theorem Lawful.pair {first : Layout α} {second : Layout β} (hfirst : first.Lawful)
    (hsecond : second.Lawful) : (first.pair second).Lawful where
  length_encode value := by
    rw [size_pair, ← hfirst.length_encode value.1, ← hsecond.length_encode value.2]
    exact List.length_append
  decode_encode value := by
    have hdrop : (first.encode value.1 ++ second.encode value.2).drop first.size =
        second.encode value.2 := List.drop_left' (hfirst.length_encode value.1)
    show (first.decode _, second.decode _) = value
    rw [Layout.pair, hfirst.decode_encode_append, hdrop, hsecond.decode_encode]
  decode_append {bytes} hlong tail := by
    rw [size_pair] at hlong
    have hdrop : (bytes ++ tail).drop first.size = bytes.drop first.size ++ tail :=
      List.drop_append_of_le_length (by omega)
    show (first.decode _, second.decode _) = (first.decode _, second.decode _)
    rw [hfirst.decode_append (by omega), hdrop,
      hsecond.decode_append (by rw [List.length_drop]; omega)]

theorem Lawful.map {layout : Layout α} (h : layout.Lawful) {build : α → β} {split : β → α}
    (hbuild : ∀ value, build (split value) = value) : (layout.map build split).Lawful where
  length_encode value := h.length_encode (split value)
  decode_encode value := by
    show build (layout.decode (layout.encode (split value))) = value
    rw [h.decode_encode, hbuild]
  decode_append hlong tail := congrArg build (h.decode_append hlong tail)

/-! ### Leaves -/

theorem lawful_u8 : u8.Lawful where
  length_encode _ := rfl
  decode_encode _ := rfl
  decode_append {bytes} hlong tail := by
    cases bytes with
    | nil => exact absurd hlong (by decide)
    | cons byte rest => rfl

theorem lawful_flag : flag.Lawful where
  length_encode _ := rfl
  decode_encode value := by cases value <;> rfl
  decode_append {bytes} hlong tail := by
    cases bytes with
    | nil => exact absurd hlong (by decide)
    | cons byte rest => rfl

/-- A leaf that writes a number of `width` bytes and reads it back through that number. -/
theorem lawful_number (width : Nat) (rule : SlotRule) (toNumber : α → Nat) (ofNumber : Nat → α)
    (hlt : ∀ value, toNumber value < 256 ^ width)
    (hof : ∀ value, ofNumber (toNumber value) = value) :
    Lawful
      { slots := [⟨width, rule⟩]
        encode := fun value => Bytes.littleEndian width (toNumber value)
        decode := fun bytes => ofNumber (Bytes.ofLittleEndian (bytes.take width)) } where
  length_encode value := by simp [size]
  decode_encode value := by
    show ofNumber (Bytes.ofLittleEndian ((Bytes.littleEndian width (toNumber value)).take width)) =
      value
    have hwidth := Nat.le_of_eq (Bytes.length_littleEndian width (toNumber value))
    rw [List.take_of_length_le hwidth, Bytes.ofLittleEndian_littleEndian,
      Nat.mod_eq_of_lt (hlt value), hof]
  decode_append {bytes} hlong tail := by
    have hlong : width ≤ bytes.length := by simpa [size] using hlong
    simp only [List.take_append_of_le_length hlong]

theorem lawful_u16 : u16.Lawful :=
  lawful_number 2 .free UInt16.toNat UInt16.ofNat UInt16.toNat_lt fun _ => UInt16.ofNat_toNat

theorem lawful_u32 : u32.Lawful :=
  lawful_number 4 .free UInt32.toNat UInt32.ofNat UInt32.toNat_lt fun _ => UInt32.ofNat_toNat

theorem lawful_i32 : i32.Lawful :=
  lawful_number 4 .free (fun value : Int32 => value.toUInt32.toNat)
    (fun number => (UInt32.ofNat number).toInt32) (fun value => value.toUInt32.toNat_lt) fun value => by
      show (UInt32.ofNat value.toUInt32.toNat).toInt32 = value
      rw [UInt32.ofNat_toNat]
      rfl

theorem lawful_choice {width : Nat} {known : List Nat} {toNumber : α → Nat} {ofNumber : Nat → α}
    (hlt : ∀ value, toNumber value < 256 ^ width)
    (hof : ∀ value, ofNumber (toNumber value) = value) :
    (choice width known toNumber ofNumber).Lawful :=
  lawful_number width (.known known) toNumber ofNumber hlt hof

theorem lawful_block (n : Nat) : (block n).Lawful where
  length_encode value := by simpa [size, block] using value.length_bytes
  decode_encode value := Block.ofBytes_bytes value
  decode_append {bytes} hlong tail := by
    have hlong : n ≤ bytes.length := by simpa [size, block] using hlong
    exact Block.ext (Bytes.fit_append hlong tail)

theorem lawful_padding (width : Nat) : (padding width).Lawful where
  length_encode _ := by simp [size, padding]
  decode_encode _ := rfl
  decode_append _ _ := rfl

end Wire.Layout

end LocalPlay
