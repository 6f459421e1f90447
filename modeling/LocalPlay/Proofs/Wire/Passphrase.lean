import LocalPlay.Proofs.Text.Utf8
import LocalPlay.Proofs.Wire.RoundTrip
import LocalPlay.Wire.Passphrase
import Mathlib.Data.List.TakeWhile

/-!
# Passphrases in their field

A passphrase that fits its field is written to it as a whole, with nothing but zeros after it. Of a
longer one the field has the longest start that fits and ends between two characters. The field is
read up to its first zero, which is the first NUL of the text or the end of what was kept: what is
read is a text without NULs that fits, so it survives being written again.
-/

namespace LocalPlay

theorem Text.Utf8.length_encode (text : String) :
    (Text.Utf8.encode text).length = text.utf8ByteSize := by
  rw [Text.Utf8.encode, String.utf8ByteSize, ← String.utf8Encode_toList, List.utf8Encode,
    List.size_toByteArray]

theorem Bytes.fit_of_le {n : Nat} {bytes : Bytes} (hfits : bytes.length ≤ n) :
    bytes.fit n = bytes ++ List.replicate (n - bytes.length) 0 := by
  rw [Bytes.fit, List.take_of_length_le hfits]

namespace Wire

theorem charsWithin_of_le {cs : List Char} {room : Nat}
    (hroom : (cs.flatMap String.utf8EncodeChar).length ≤ room) : charsWithin room cs = cs := by
  induction cs generalizing room with
  | nil => rfl
  | cons c cs ih =>
    rw [List.flatMap_cons, List.length_append, String.length_utf8EncodeChar] at hroom
    have hfirst : c.utf8Size ≤ room := by omega
    have hrest : charsWithin (room - c.utf8Size) cs = cs := ih (by omega)
    rw [charsWithin, if_pos hfirst, hrest]

theorem passphraseFits_iff {text : String} :
    passphraseFits text = true ↔ text.utf8ByteSize ≤ passphraseSize :=
  decide_eq_true_iff

/-- Nothing is cut, and the rest is zeros. -/
theorem bytes_passphraseField {text : String} (hfits : passphraseFits text = true) :
    (passphraseField text).bytes = Text.Utf8.encode text ++
      List.replicate (passphraseSize - text.utf8ByteSize) 0 := by
  have hsize : (Text.Utf8.encode text).length ≤ passphraseSize := by
    rw [Text.Utf8.length_encode]
    exact passphraseFits_iff.mp hfits
  have hwhole : charsWithin passphraseSize text.toList = text.toList := charsWithin_of_le hsize
  rw [passphraseField, hwhole, String.ofList_toList]
  show Bytes.fit passphraseSize (Text.Utf8.encode text) = _
  rw [Bytes.fit_of_le hsize, Text.Utf8.length_encode]

/-! ### Cut between characters -/

theorem charsWithin_isPrefix (room : Nat) (cs : List Char) : charsWithin room cs <+: cs := by
  induction cs generalizing room with
  | nil => exact List.prefix_rfl
  | cons c cs ih =>
    rw [charsWithin]
    split
    · exact List.cons_prefix_cons.mpr ⟨rfl, ih _⟩
    · exact List.nil_prefix

theorem length_charsWithin_le (room : Nat) (cs : List Char) :
    ((charsWithin room cs).flatMap String.utf8EncodeChar).length ≤ room := by
  induction cs generalizing room with
  | nil => exact Nat.zero_le _
  | cons c cs ih =>
    rw [charsWithin]
    split
    · have hrest := ih (room - c.utf8Size)
      rw [List.flatMap_cons, List.length_append, String.length_utf8EncodeChar]
      omega
    · exact Nat.zero_le _

/-- Every start that fits is within the one that is kept. -/
theorem isPrefix_charsWithin {cs start : List Char} {room : Nat} (hstart : start <+: cs)
    (hroom : (start.flatMap String.utf8EncodeChar).length ≤ room) :
    start <+: charsWithin room cs := by
  induction cs generalizing start room with
  | nil => exact hstart
  | cons c cs ih =>
    cases start with
    | nil => exact List.nil_prefix
    | cons first start =>
      obtain ⟨rfl, hrest⟩ := List.cons_prefix_cons.mp hstart
      rw [List.flatMap_cons, List.length_append, String.length_utf8EncodeChar] at hroom
      have hfirst : first.utf8Size ≤ room := by omega
      rw [charsWithin, if_pos hfirst]
      exact List.cons_prefix_cons.mpr ⟨rfl, ih hrest (by omega)⟩

/-- The text that a field keeps. -/
def keptText (text : String) : String :=
  String.ofList (charsWithin passphraseSize text.toList)

theorem passphraseFits_keptText (text : String) : passphraseFits (keptText text) = true := by
  rw [passphraseFits_iff, ← Text.Utf8.length_encode, keptText, Text.Utf8.encode_ofList]
  exact length_charsWithin_le passphraseSize text.toList

/-- The field of a text is that of what it keeps. -/
theorem bytes_field_eq (text : String) :
    (passphraseField text).bytes = Text.Utf8.encode (keptText text) ++
      List.replicate (passphraseSize - (keptText text).utf8ByteSize) 0 := by
  have hsize : (Text.Utf8.encode (keptText text)).length ≤ passphraseSize := by
    rw [Text.Utf8.length_encode]
    exact passphraseFits_iff.mp (passphraseFits_keptText text)
  show Bytes.fit passphraseSize (Text.Utf8.encode (keptText text)) = _
  rw [Bytes.fit_of_le hsize, Text.Utf8.length_encode]

/-! ### Reading back -/

/-- The text before its first NUL. -/
def beforeNulChar (text : String) : String :=
  String.ofList (text.toList.takeWhile (· ≠ '\x00'))

theorem passphraseText_passphraseField (text : String) :
    passphraseText (passphraseField text) = beforeNulChar (keptText text) := by
  rw [passphraseText, bytes_field_eq, Text.Utf8.encode, Text.Utf8.beforeNul_encode,
    ← Text.Utf8.encode_ofList, Text.Utf8.lossy_encode]
  rfl

/-- What is read of a field starts the text that was written. -/
theorem beforeNulChar_isPrefix (text : String) : (beforeNulChar text).toList <+: text.toList := by
  rw [beforeNulChar, String.toList_ofList]
  exact List.takeWhile_prefix _

theorem keptText_isPrefix (text : String) : (keptText text).toList <+: text.toList := by
  rw [keptText, String.toList_ofList]
  exact charsWithin_isPrefix passphraseSize text.toList

/-- A start of what fits fits. -/
theorem passphraseFits_of_isPrefix {text start : String} (hfits : passphraseFits text = true)
    (hstart : start.toList <+: text.toList) : passphraseFits start = true := by
  rw [passphraseFits_iff, ← Text.Utf8.length_encode] at hfits ⊢
  obtain ⟨rest, hrest⟩ := hstart
  rw [Text.Utf8.encode, ← hrest, List.flatMap_append, List.length_append] at hfits
  exact Nat.le_trans (Nat.le_add_right _ _) hfits

theorem keptText_of_fits {text : String} (hfits : passphraseFits text = true) :
    keptText text = text := by
  rw [passphraseFits_iff, ← Text.Utf8.length_encode, Text.Utf8.encode] at hfits
  rw [keptText, charsWithin_of_le hfits, String.ofList_toList]

theorem beforeNulChar_beforeNulChar (text : String) :
    beforeNulChar (beforeNulChar text) = beforeNulChar text := by
  rw [beforeNulChar, beforeNulChar, String.toList_ofList, List.takeWhile_idem]

/-- The field of any text has the longest start of the text that consists of whole characters and
has at most 128 bytes, and then zeros only. What is read back is this start up to its first NUL, so
there is no replacement character in it that was not in the text; written and read again it is the
same. And the field arrives as it was sent, however its packet is cut. -/
theorem passphrase_cut_between_characters (text : String) :
    let field := passphraseField text
    (∃ kept : String, kept.toList <+: text.toList ∧ kept.utf8ByteSize ≤ 128 ∧
      (∀ start : String, start.toList <+: text.toList → start.utf8ByteSize ≤ 128 →
        start.toList <+: kept.toList) ∧
      field.bytes = Text.Utf8.encode kept ++ List.replicate (128 - kept.utf8ByteSize) 0 ∧
      passphraseText field = String.ofList (kept.toList.takeWhile (· ≠ '\x00'))) ∧
    (Text.Utf8.replacement ∈ (passphraseText field).toList →
      Text.Utf8.replacement ∈ text.toList) ∧
    passphraseText (passphraseField (passphraseText field)) = passphraseText field ∧
    ∃ bytes, (Packet.passphrase field).encode = .ok bytes ∧
      ∀ pieces : List Bytes, pieces.flatten = bytes →
        (Reassembly.empty.feedAll pieces).frames.map (·.packet) = [.passphrase field] := by
  intro field
  have hread : passphraseText field = beforeNulChar (keptText text) :=
    passphraseText_passphraseField text
  have hkept := keptText_isPrefix text
  have hfits := passphraseFits_keptText text
  have hstart := beforeNulChar_isPrefix (keptText text)
  refine ⟨⟨keptText text, hkept, passphraseFits_iff.mp hfits, fun start hprefix hsize => ?_,
    bytes_field_eq text, hread⟩, fun hmem => ?_, ?_, ?_⟩
  · rw [← Text.Utf8.length_encode, Text.Utf8.encode] at hsize
    rw [keptText, String.toList_ofList]
    exact isPrefix_charsWithin hprefix hsize
  · rw [hread] at hmem
    exact (hstart.trans hkept).subset hmem
  · rw [hread, passphraseText_passphraseField,
      keptText_of_fits (passphraseFits_of_isPrefix hfits hstart), beforeNulChar_beforeNulChar]
  · have hsize : (Packet.passphrase field).payload.length = 128 := field.length_bytes
    exact (Packet.passphrase field).exists_arrival (by rw [hsize]; decide)

end Wire

end LocalPlay
