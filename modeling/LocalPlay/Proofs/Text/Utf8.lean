import LocalPlay.Text.Utf8

/-!
# Texts are read back

The encoding of a character is its number cut into groups of six bits, of which the first byte says
how many follow. A reader that has taken some of these bytes knows the upper bits of the number and
owes as many groups as there are bytes left, so the bytes of a character leave it between characters
with just that character. The limits for a byte after the first are met because the encoding is
never overlong and a character is no surrogate.
-/

namespace LocalPlay.Text.Utf8

theorem readFrom_cons (state : State) (byte : UInt8) (rest : Bytes) :
    readFrom state (byte :: rest) =
      (step state byte.toNat).2 ++ readFrom (step state byte.toNat).1 rest := by
  rw [readFrom]

/-! ### Bytes of one character -/

/-- The byte that has the six bits of `value` at `place`. -/
def group (value place : Nat) : UInt8 :=
  UInt8.ofNat (value / place % 64 + 0x80)

theorem toNat_ofNat_of_lt {number : Nat} (hsmall : number < 256) :
    (UInt8.ofNat number).toNat = number := by
  rw [UInt8.toNat_ofNat']
  exact Nat.mod_eq_of_lt hsmall

theorem toNat_group (value place : Nat) : (group value place).toNat = value / place % 64 + 0x80 :=
  toNat_ofNat_of_lt (by omega)

/-- The bits before a group and those of the group. -/
theorem div_mul_add_group (value place : Nat) :
    value / (place * 64) * 64 + (value / place % 64 + 0x80 - 0x80) = value / place := by
  rw [← Nat.div_div_eq_div_mul]
  omega

/-- A group within the limits that is not the last one. -/
theorem readFrom_group (place : Nat) {value owed low high : Nat}
    (hlow : low ≤ value / place % 64 + 0x80) (hhigh : value / place % 64 + 0x80 ≤ high)
    (rest : Bytes) :
    readFrom (some ⟨value / (place * 64), owed + 2, low, high⟩) (group value place :: rest) =
      readFrom (some ⟨value / place, owed + 1, 0x80, 0xBF⟩) rest := by
  have howed : ¬ owed + 2 = 1 := by omega
  have hstep : step (some ⟨value / (place * 64), owed + 2, low, high⟩)
      (value / place % 64 + 0x80) = (some ⟨value / place, owed + 1, 0x80, 0xBF⟩, []) := by
    rw [step, if_pos ⟨hlow, hhigh⟩, if_neg howed, div_mul_add_group]
    rfl
  rw [readFrom_cons, toNat_group, hstep, List.nil_append]

/-- The last group completes the character. -/
theorem readFrom_lastGroup {value low high : Nat} (hlow : low ≤ value % 64 + 0x80)
    (hhigh : value % 64 + 0x80 ≤ high) (rest : Bytes) :
    readFrom (some ⟨value / 64, 1, low, high⟩) (group value 1 :: rest) =
      some (Char.ofNat value) :: readFrom none rest := by
  have hbits := div_mul_add_group value 1
  rw [Nat.div_one, Nat.one_mul] at hbits
  have hstep : step (some ⟨value / 64, 1, low, high⟩) (value % 64 + 0x80) =
      (none, [some (Char.ofNat value)]) := by
    rw [step, if_pos ⟨hlow, hhigh⟩, if_pos rfl, hbits]
  rw [readFrom_cons, toNat_group, Nat.div_one, hstep]
  rfl

/-- Groups other than the first may be anything. -/
theorem group_within (value place : Nat) :
    0x80 ≤ value / place % 64 + 0x80 ∧ value / place % 64 + 0x80 ≤ 0xBF := by
  omega

/-! ### First bytes -/

theorem start_of_two {value : Nat} (hlow : 0x7F < value) (hhigh : value ≤ 0x7FF) :
    start (value / 64 + 0xC0) = (some ⟨value / 64, 1, 0x80, 0xBF⟩, []) := by
  rw [start, if_neg (by omega), if_neg (by omega), if_pos (by omega), Nat.add_sub_cancel]

/-- The limits for the second byte keep out what is overlong and surrogates. -/
theorem start_of_three {value : Nat} (hlow : 0x7FF < value) (hhigh : value ≤ 0xFFFF)
    (hscalar : value < 0xD800 ∨ 0xDFFF < value) :
    ∃ low high, start (value / 4096 + 0xE0) = (some ⟨value / 4096, 2, low, high⟩, []) ∧
      low ≤ value / 64 % 64 + 0x80 ∧ value / 64 % 64 + 0x80 ≤ high := by
  rw [start, if_neg (by omega), if_neg (by omega), if_neg (by omega)]
  by_cases hfirst : value / 4096 = 0
  · rw [hfirst, if_pos rfl]
    exact ⟨0xA0, 0xBF, rfl, by omega, by omega⟩
  · rw [if_neg (by omega)]
    by_cases hsurrogates : value / 4096 = 0xD
    · rw [hsurrogates, if_pos rfl]
      exact ⟨0x80, 0x9F, rfl, by omega, by omega⟩
    · rw [if_neg (by omega), if_pos (by omega), Nat.add_sub_cancel]
      exact ⟨0x80, 0xBF, rfl, group_within value 64⟩

/-- The limits for the second byte keep out what is overlong or past the last character. -/
theorem start_of_four {value : Nat} (hlow : 0xFFFF < value) (hhigh : value < 0x110000) :
    ∃ low high, start (value / 262144 + 0xF0) = (some ⟨value / 262144, 3, low, high⟩, []) ∧
      low ≤ value / 4096 % 64 + 0x80 ∧ value / 4096 % 64 + 0x80 ≤ high := by
  rw [start, if_neg (by omega), if_neg (by omega), if_neg (by omega), if_neg (by omega),
    if_neg (by omega), if_neg (by omega)]
  by_cases hfirst : value / 262144 = 0
  · rw [hfirst, if_pos rfl]
    exact ⟨0x90, 0xBF, rfl, by omega, by omega⟩
  · rw [if_neg (by omega)]
    by_cases hlast : value / 262144 = 4
    · rw [hlast, if_neg (by omega), if_pos rfl]
      exact ⟨0x80, 0x8F, rfl, by omega, by omega⟩
    · rw [if_pos (by omega), Nat.add_sub_cancel]
      exact ⟨0x80, 0xBF, rfl, group_within value 4096⟩

/-! ### Characters and texts -/

theorem toNat_char_lt (c : Char) :
    c.toNat < 0x110000 ∧ (c.toNat < 0xD800 ∨ 0xDFFF < c.toNat) := by
  rcases c.valid with hlow | ⟨hlow, hhigh⟩
  · exact ⟨Nat.lt_trans hlow (by decide), .inl hlow⟩
  · exact ⟨hhigh, .inr hlow⟩

/-- The bytes of a character by its number. -/
theorem encodeChar_eq (c : Char) :
    String.utf8EncodeChar c =
      if c.toNat ≤ 0x7F then [UInt8.ofNat c.toNat]
      else if c.toNat ≤ 0x7FF then [UInt8.ofNat (c.toNat / 64 + 0xC0), group c.toNat 1]
      else if c.toNat ≤ 0xFFFF then
        [UInt8.ofNat (c.toNat / 4096 + 0xE0), group c.toNat 64, group c.toNat 1]
      else
        [UInt8.ofNat (c.toNat / 262144 + 0xF0), group c.toNat 4096, group c.toNat 64,
          group c.toNat 1] := by
  obtain ⟨hlimit, -⟩ := toNat_char_lt c
  have hlast : group c.toNat 1 = UInt8.ofNat (c.toNat % 64 + 0x80) := by
    rw [group, Nat.div_one]
  show (if c.toNat ≤ 0x7F then _ else if c.toNat ≤ 0x7FF then _ else if c.toNat ≤ 0xFFFF then _
    else _ : Bytes) = _
  rw [hlast]
  by_cases hone : c.toNat ≤ 0x7F
  · rw [if_pos hone, if_pos hone]
    rfl
  · by_cases htwo : c.toNat ≤ 0x7FF
    · have hfirst : c.toNat / 64 % 0x20 = c.toNat / 64 := Nat.mod_eq_of_lt (by omega)
      rw [if_neg hone, if_pos htwo, if_neg hone, if_pos htwo, ← hfirst]
      rfl
    · by_cases hthree : c.toNat ≤ 0xFFFF
      · have hfirst : c.toNat / 4096 % 0x10 = c.toNat / 4096 := Nat.mod_eq_of_lt (by omega)
        rw [if_neg hone, if_neg htwo, if_pos hthree, if_neg hone, if_neg htwo, if_pos hthree,
          ← hfirst]
        rfl
      · have hfirst : c.toNat / 262144 % 0x08 = c.toNat / 262144 := Nat.mod_eq_of_lt (by omega)
        rw [if_neg hone, if_neg htwo, if_neg hthree, if_neg hone, if_neg htwo, if_neg hthree,
          ← hfirst]
        rfl

/-- The encoding of a character is read as that character, whatever follows it. -/
theorem readFrom_encodeChar (c : Char) (rest : Bytes) :
    readFrom none (String.utf8EncodeChar c ++ rest) = some c :: readFrom none rest := by
  obtain ⟨hlimit, hscalar⟩ := toNat_char_lt c
  have hfirst {number : Nat} {state : State} {found : List (Option Char)} (hsmall : number < 256)
      (hstart : start number = (state, found)) (more : Bytes) :
      readFrom none (UInt8.ofNat number :: more) = found ++ readFrom state more := by
    rw [readFrom_cons, toNat_ofNat_of_lt hsmall, step, hstart]
  have hlast {low high : Nat} (hlow : low ≤ c.toNat % 64 + 0x80)
      (hhigh : c.toNat % 64 + 0x80 ≤ high) :
      readFrom (some ⟨c.toNat / 64, 1, low, high⟩) (group c.toNat 1 :: rest) =
        some c :: readFrom none rest := by
    rw [readFrom_lastGroup hlow hhigh, Char.ofNat_toNat]
  rw [encodeChar_eq]
  by_cases hone : c.toNat ≤ 0x7F
  · have hstart : start c.toNat = (none, [some c]) := by
      rw [start, if_pos (by omega), Char.ofNat_toNat]
    rw [if_pos hone, List.singleton_append, hfirst (by omega) hstart]
    rfl
  · by_cases htwo : c.toNat ≤ 0x7FF
    · have hstart := start_of_two (Nat.not_le.mp hone) htwo
      rw [if_neg hone, if_pos htwo]
      exact (hfirst (by omega) hstart _).trans (hlast (by omega) (by omega))
    · by_cases hthree : c.toNat ≤ 0xFFFF
      · obtain ⟨low, high, hstart, hlow, hhigh⟩ :=
          start_of_three (Nat.not_le.mp htwo) hthree hscalar
        rw [if_neg hone, if_neg htwo, if_pos hthree]
        refine (hfirst (by omega) hstart _).trans ?_
        refine (readFrom_group 64 hlow hhigh _).trans ?_
        exact hlast (by omega) (by omega)
      · obtain ⟨low, high, hstart, hlow, hhigh⟩ := start_of_four (Nat.not_le.mp hthree) hlimit
        obtain ⟨hnext, hnext'⟩ := group_within c.toNat 64
        rw [if_neg hone, if_neg htwo, if_neg hthree]
        refine (hfirst (by omega) hstart _).trans ?_
        refine (readFrom_group 4096 hlow hhigh _).trans ?_
        refine (readFrom_group 64 hnext hnext' _).trans ?_
        exact hlast (by omega) (by omega)

theorem encode_ofList (cs : List Char) :
    encode (String.ofList cs) = cs.flatMap String.utf8EncodeChar := by
  rw [encode, String.toList_ofList]

/-- A text is read back without a defect. -/
theorem read_encode (text : String) : read (encode text) = text.toList.map some := by
  rw [read, encode]
  induction text.toList with
  | nil => rfl
  | cons c cs ih => rw [List.flatMap_cons, readFrom_encodeChar, ih, List.map_cons]

theorem strict?_encode (text : String) : strict? (encode text) = some text.toList := by
  rw [strict?, read_encode]
  induction text.toList with
  | nil => rfl
  | cons c cs ih => rw [List.map_cons, List.mapM_cons, ih]; rfl

theorem lossy_encode (text : String) : lossy (encode text) = text := by
  rw [lossy, read_encode, List.map_map]
  exact (congrArg String.ofList (List.map_id _)).trans String.ofList_toList

/-! ### Zeros -/

/-- A byte below 128 is a character of its own. -/
theorem toNat_eq_of_mem_encodeChar {c : Char} {byte : UInt8} (hmem : byte ∈ String.utf8EncodeChar c)
    (hascii : byte.toNat < 0x80) : c.toNat = byte.toNat := by
  obtain ⟨hlimit, -⟩ := toNat_char_lt c
  have hfirst {number : Nat} (hlow : 0x80 ≤ number) (hhigh : number < 256)
      (hbyte : byte = UInt8.ofNat number) : False := by
    rw [hbyte, toNat_ofNat_of_lt hhigh] at hascii
    omega
  have hgroup {place : Nat} (hbyte : byte = group c.toNat place) : False := by
    rw [hbyte, toNat_group] at hascii
    omega
  rw [encodeChar_eq] at hmem
  by_cases hone : c.toNat ≤ 0x7F
  · rw [if_pos hone, List.mem_singleton] at hmem
    rw [hmem, toNat_ofNat_of_lt (by omega)]
  · exfalso
    rw [if_neg hone] at hmem
    split at hmem
    · simp only [List.mem_cons, List.not_mem_nil, or_false] at hmem
      rcases hmem with hbyte | hbyte
      · exact hfirst (by omega) (by omega) hbyte
      · exact hgroup hbyte
    · split at hmem
      · simp only [List.mem_cons, List.not_mem_nil, or_false] at hmem
        rcases hmem with hbyte | hbyte | hbyte
        · exact hfirst (by omega) (by omega) hbyte
        · exact hgroup hbyte
        · exact hgroup hbyte
      · simp only [List.mem_cons, List.not_mem_nil, or_false] at hmem
        rcases hmem with hbyte | hbyte | hbyte | hbyte
        · exact hfirst (by omega) (by omega) hbyte
        · exact hgroup hbyte
        · exact hgroup hbyte
        · exact hgroup hbyte

/-- What an encoding has before its first zero is what the text has before its first NUL. -/
theorem beforeNul_encode (cs : List Char) (padding : Nat) :
    Bytes.beforeNul (cs.flatMap String.utf8EncodeChar ++ List.replicate padding 0) =
      (cs.takeWhile (· ≠ '\x00')).flatMap String.utf8EncodeChar := by
  induction cs with
  | nil => cases padding <;> rfl
  | cons c cs ih =>
    by_cases hnul : c = '\x00'
    · subst hnul
      rfl
    · have hnonzero : ∀ byte ∈ String.utf8EncodeChar c, (byte != 0) = true := by
        intro byte hmem
        rw [bne_iff_ne]
        rintro rfl
        exact hnul (Char.toNat_inj.mp (toNat_eq_of_mem_encodeChar hmem (by decide)))
      have hkept : (c :: cs).takeWhile (· ≠ '\x00') = c :: cs.takeWhile (· ≠ '\x00') :=
        List.takeWhile_cons_of_pos (decide_eq_true hnul)
      rw [hkept, List.flatMap_cons, List.flatMap_cons, List.append_assoc, ← ih, Bytes.beforeNul,
        List.takeWhile_append_of_pos hnonzero]
      rfl

end LocalPlay.Text.Utf8
