import LocalPlay.Json.Skip
import LocalPlay.Proofs.Json.Grammar
import LocalPlay.Proofs.Text.Digits

/-!
# Reading and skipping what is not nested

Blanks are skipped, and a text is read as what it spells, whatever comes after its closing quote. A
number goes on as long as it can, so what comes after it must not continue it: `Ends` says what
stands after a value where one may end.
-/

namespace LocalPlay.Json

/-- A value may end before this. -/
def Ends (rest : List Char) : Prop :=
  ∀ c, rest.head? = some c → isBlank c = true ∨ c = ',' ∨ c = ']' ∨ c = '\x7d'

variable {blanks cs rest inner text : List Char} {c : Char} {unit : Nat}

/-! ### Blanks -/

theorem skipBlank_append (hblanks : Blanks blanks) (rest : List Char) :
    skipBlank (blanks ++ rest) = skipBlank rest := by
  induction blanks with
  | nil => rfl
  | cons c blanks ih =>
    obtain ⟨hc, hrest⟩ := List.forall_mem_cons.mp hblanks
    rw [List.cons_append, skipBlank, List.dropWhile_cons_of_pos hc]
    exact ih hrest

theorem skipBlank_cons (hc : isBlank c = false) (rest : List Char) :
    skipBlank (c :: rest) = c :: rest :=
  List.dropWhile_cons_of_neg (by simp [hc])

/-- Blanks and then the end of a value. -/
theorem Ends.of_blanks (hblanks : Blanks blanks)
    (hc : c = ',' ∨ c = ']' ∨ c = '\x7d') (rest : List Char) : Ends (blanks ++ c :: rest) := by
  intro d hd
  cases blanks with
  | nil =>
    obtain rfl := Option.some.inj hd
    exact .inr hc
  | cons blank blanks =>
    obtain rfl := Option.some.inj hd
    exact .inl (hblanks blank List.mem_cons_self)

theorem Ends.of_only_blanks (hblanks : Blanks blanks) : Ends blanks := by
  intro d hd
  exact .inl (hblanks d (List.mem_of_mem_head? hd))

/-! ### Texts -/

theorem codeUnit_append (hdigits : UnitDigits unit cs) (rest : List Char) :
    codeUnit (cs ++ rest) = .ok (unit, rest) := by
  obtain ⟨a, b, c, d, i, j, k, l, rfl, ha, hb, hc, hd, rfl⟩ := hdigits
  simp only [List.cons_append, List.nil_append, codeUnit, ha, hb, hc, hd]

/-- A character is no half of a surrogate pair. -/
theorem not_surrogate (c : Char) :
    isLowSurrogate c.toNat = false ∧ isHighSurrogate c.toNat = false := by
  have hvalid : c.toNat < 0xD800 ∨ 0xDFFF < c.toNat ∧ c.toNat < 0x110000 := c.valid
  simp only [isLowSurrogate, isHighSurrogate, Bool.and_eq_false_iff, decide_eq_false_iff_not]
  omega

theorem escaped_letter {letter : Char} (hletter : letterEscape? letter = some c)
    (rest : List Char) : escaped (letter :: rest) = .ok (c, rest) := by
  have hnot : letter ≠ 'u' := by
    rintro rfl
    cases hletter
  rw [escaped, if_neg hnot, hletter]

theorem escaped_unit (hdigits : UnitDigits c.toNat cs) (rest : List Char) :
    escaped ('u' :: cs ++ rest) = .ok (c, rest) := by
  obtain ⟨hlow, hhigh⟩ := not_surrogate c
  rw [List.cons_append, escaped, if_pos rfl, codePoint, codeUnit_append hdigits]
  simp [hlow, hhigh, Char.ofNat_toNat]

theorem escaped_pair {high low : Nat} {highDigits lowDigits : List Char}
    (hhigh : UnitDigits high highDigits) (hlow : UnitDigits low lowDigits)
    (hhigh' : 0xD800 ≤ high ∧ high < 0xDC00) (hlow' : 0xDC00 ≤ low ∧ low < 0xE000)
    (hc : c.toNat = 0x10000 + (high - 0xD800) * 0x400 + (low - 0xDC00)) (rest : List Char) :
    escaped ('u' :: highDigits ++ '\\' :: 'u' :: lowDigits ++ rest) = .ok (c, rest) := by
  have hnot : isLowSurrogate high = false := by
    simp only [isLowSurrogate, Bool.and_eq_false_iff, decide_eq_false_iff_not]
    omega
  have hfirst : isHighSurrogate high = true := by simp [isHighSurrogate, hhigh']
  have hsecond : isLowSurrogate low = true := by simp [isLowSurrogate, hlow']
  have hchar : Char.ofNat (0x10000 + (high - 0xD800) * 0x400 + (low - 0xDC00)) = c := by
    rw [← hc, Char.ofNat_toNat]
  simp only [List.cons_append, List.append_assoc]
  rw [escaped, if_pos rfl, codePoint, codeUnit_append hhigh]
  simp [hnot, hfirst, word, codeUnit_append hlow, hsecond, hchar]

theorem ne_of_isPlain (hplain : isPlain c = true) :
    c ≠ '"' ∧ c ≠ '\\' ∧ ¬ c.toNat < 0x20 := by
  simp only [isPlain, Bool.and_eq_true, decide_eq_true_eq, bne_iff_ne] at hplain
  exact ⟨hplain.1.2, hplain.2, Nat.not_lt_of_le hplain.1.1⟩

theorem stringFrom_plain (hplain : isPlain c = true) (found rest : List Char) :
    stringFrom found (c :: rest) = stringFrom (c :: found) rest := by
  obtain ⟨hquote, hbackslash, hcontrol⟩ := ne_of_isPlain hplain
  rw [stringFrom, if_neg hquote, if_neg hbackslash, if_neg hcontrol]

theorem stringFrom_escaped (hescaped : escaped cs = .ok (c, rest)) (found : List Char) :
    stringFrom found ('\\' :: cs) = stringFrom (c :: found) rest := by
  rw [stringFrom, if_neg (by decide), if_pos rfl]
  split
  · next hflaw => rw [hescaped] at hflaw; cases hflaw
  · next hok =>
    rw [hescaped] at hok
    cases hok
    rfl

/-- A text is read as what it spells. -/
theorem stringFrom_spelled (hspelled : Spelled text inner) (found rest : List Char) :
    stringFrom found (inner ++ '"' :: rest) =
      .ok (String.ofList (found.reverse ++ text), rest) := by
  induction hspelled generalizing found with
  | nil => simp [stringFrom]
  | @cons c text spelling inner hc hrest ih =>
    have hnext : stringFrom (c :: found) (inner ++ '"' :: rest) =
        .ok (String.ofList (found.reverse ++ c :: text), rest) := by
      rw [ih]
      simp
    rw [← hnext, List.append_assoc]
    cases hc with
    | plain hplain => exact stringFrom_plain hplain found _
    | letter hletter => exact stringFrom_escaped (escaped_letter hletter _) found
    | unit hdigits => exact stringFrom_escaped (escaped_unit hdigits _) found
    | pair hhigh hlow hhigh' hlow' hc =>
      exact stringFrom_escaped (escaped_pair hhigh hlow hhigh' hlow' hc _) found

theorem stringFrom_quoted {name : String} (hquoted : Quoted name cs) (rest : List Char) :
    ∃ inner, cs = '"' :: inner ∧ stringFrom [] (inner ++ rest) = .ok (name, rest) := by
  obtain ⟨inner, hspelled, rfl⟩ := hquoted
  refine ⟨inner ++ ['"'], rfl, ?_⟩
  rw [List.append_assoc, List.singleton_append, stringFrom_spelled hspelled]
  simp

theorem skipString_plain (hplain : isPlain c = true) (rest : List Char) :
    skipString (c :: rest) = skipString rest := by
  obtain ⟨hquote, hbackslash, hcontrol⟩ := ne_of_isPlain hplain
  rw [skipString.eq_def]
  dsimp only
  rw [if_neg hquote, if_neg hbackslash, if_neg hcontrol]

theorem skipString_letter {letter : Char} (hletter : letterEscape? letter = some c)
    (rest : List Char) : skipString ('\\' :: letter :: rest) = skipString rest := by
  have hnot : letter ≠ 'u' := by
    rintro rfl
    cases hletter
  rw [skipString.eq_def]
  dsimp only
  rw [if_neg (by decide), if_pos rfl]
  split
  · next heq => cases heq
  · next heq => exact absurd (List.cons.inj heq).1 hnot
  · next heq =>
    obtain ⟨rfl, rfl⟩ := List.cons.inj heq
    rw [hletter, Option.isSome_some, if_pos rfl]

theorem skipString_unit (hdigits : UnitDigits unit cs) (rest : List Char) :
    skipString ('\\' :: 'u' :: cs ++ rest) = skipString rest := by
  rw [List.cons_append, List.cons_append, skipString, if_neg (by decide), if_pos rfl]
  dsimp only
  split
  · next hflaw => rw [codeUnit_append hdigits] at hflaw; cases hflaw
  · next hok =>
    rw [codeUnit_append hdigits] at hok
    cases hok
    rfl

/-- What has the form of a text is skipped. -/
theorem skipString_form (hform : TextForm inner) (rest : List Char) :
    skipString (inner ++ '"' :: rest) = .ok rest := by
  induction hform with
  | nil => simp [skipString.eq_def]
  | plain hplain _ ih => rw [List.cons_append, skipString_plain hplain, ih]
  | letter hletter _ ih =>
    rw [List.cons_append, List.cons_append, skipString_letter hletter, ih]
  | unit hdigits _ ih => rw [List.append_assoc, skipString_unit hdigits, ih]

/-! ### Numbers -/

/-- Nothing that may follow a value continues a number. -/
theorem Ends.head (hends : Ends rest) (hc : rest.head? = some c) :
    c.isDigit = false ∧ c ≠ '.' ∧ c ≠ 'e' ∧ c ≠ 'E' := by
  have hcases : c = ' ' ∨ c = '\t' ∨ c = '\n' ∨ c = '\r' ∨ c = ',' ∨ c = ']' ∨ c = '\x7d' := by
    have hblank := hends c hc
    simp only [isBlank, Bool.or_eq_true, beq_iff_eq, or_assoc] at hblank
    exact hblank
  rcases hcases with rfl | rfl | rfl | rfl | rfl | rfl | rfl
  all_goals decide

theorem digits_append (hdigits : Digits cs)
    (hrest : ∀ c, rest.head? = some c → c.isDigit = false) :
    digits (cs ++ rest) = .ok (cs, rest) := by
  obtain ⟨htake, hdrop⟩ := Text.span_append hdigits.2 hrest
  rw [digits, htake, hdrop, if_neg hdigits.1]

theorem wholePart_append (hwhole : WholeDigits cs)
    (hrest : ∀ c, rest.head? = some c → c.isDigit = false) :
    wholePart (cs ++ rest) = .ok (cs, rest) := by
  rw [wholePart, digits_append hwhole.1 hrest]
  exact if_neg fun hzero => hzero.2 (hwhole.2 hzero.1)

theorem fractionPart_none (hrest : rest.head? ≠ some '.') :
    fractionPart rest = .ok (none, rest) := by
  cases rest with
  | nil => rfl
  | cons c rest => exact if_neg fun hc => hrest (by rw [hc]; rfl)

theorem fractionPart_append (hfraction : Fraction cs)
    (hrest : ∀ c, rest.head? = some c → c.isDigit = false ∧ c ≠ '.') :
    ∃ fraction, fractionPart (cs ++ rest) = .ok (fraction, rest) := by
  cases hfraction with
  | none => exact ⟨none, fractionPart_none fun hc => (hrest _ hc).2 rfl⟩
  | @some digits hdigits =>
    refine ⟨some digits, ?_⟩
    rw [List.cons_append, fractionPart, if_pos rfl,
      digits_append hdigits fun c hc => (hrest c hc).1]

theorem exponentPart_none (hends : Ends rest) : exponentPart rest = .ok (none, rest) := by
  cases rest with
  | nil => rfl
  | cons c rest =>
    obtain ⟨-, -, hlower, hupper⟩ := hends.head (c := c) rfl
    exact if_neg (by simp [hlower, hupper])

/-- A sign is read off digits, which have none themselves. -/
theorem sign_append {sign' digits' : List Char}
    (hsign : sign' = [] ∨ sign' = ['+'] ∨ sign' = ['-']) (hdigits : Digits digits')
    (rest : List Char) : (sign (sign' ++ digits' ++ rest)).2 = digits' ++ rest := by
  rcases hsign with rfl | rfl | rfl
  · obtain ⟨hne, hall⟩ := hdigits
    cases digits' with
    | nil => exact absurd rfl hne
    | cons c digits' =>
      have hc := hall c List.mem_cons_self
      have hminus : c ≠ '-' := by
        rintro rfl
        cases hc
      have hplus : c ≠ '+' := by
        rintro rfl
        cases hc
      simp [sign, hminus, hplus]
  · rfl
  · rfl

theorem exponentPart_append (hexponent : Exponent cs) (hends : Ends rest) :
    ∃ exponent, exponentPart (cs ++ rest) = .ok (exponent, rest) := by
  cases hexponent with
  | none => exact ⟨none, exponentPart_none hends⟩
  | @some e sign' digits' he hsign hdigits =>
    have hread := sign_append hsign hdigits rest
    have hdigits' := digits_append hdigits fun c hc => (hends.head hc).1
    rw [List.cons_append, List.cons_append, exponentPart, if_pos he, hread, hdigits']
    exact ⟨_, rfl⟩

theorem minus_digits (hdigits : Digits cs) (rest : List Char) :
    minus (cs ++ rest) = (false, cs ++ rest) := by
  obtain ⟨hne, hall⟩ := hdigits
  cases cs with
  | nil => exact absurd rfl hne
  | cons c cs =>
    refine if_neg ?_
    rintro rfl
    cases hall '-' List.mem_cons_self

theorem numeral_eq {first : Bool} {afterMinus afterWhole afterFraction whole : List Char}
    {fraction : Option (List Char)} {exponent : Option Int}
    (hminus : minus cs = (first, afterMinus))
    (hwhole : wholePart afterMinus = .ok (whole, afterWhole))
    (hfraction : fractionPart afterWhole = .ok (fraction, afterFraction))
    (hexponent : exponentPart afterFraction = .ok (exponent, rest)) :
    numeral cs = .ok ({ negative := first, whole, fraction, exponent }, rest) := by
  rw [numeral, hminus]
  dsimp only
  rw [hwhole]
  dsimp only
  rw [hfraction]
  dsimp only
  rw [hexponent]

/-- What begins with a fraction or an exponent, or follows a value. -/
theorem head_of_exponent (hexponent : Exponent cs) (hends : Ends rest)
    (hc : (cs ++ rest).head? = some c) : c.isDigit = false ∧ c ≠ '.' := by
  cases hexponent with
  | none => exact ⟨(hends.head hc).1, (hends.head hc).2.1⟩
  | some he =>
    obtain rfl := Option.some.inj hc
    rcases he with rfl | rfl
    all_goals decide

theorem head_of_fraction (hfraction : Fraction cs)
    (hrest : ∀ c, rest.head? = some c → c.isDigit = false)
    (hc : (cs ++ rest).head? = some c) : c.isDigit = false := by
  cases hfraction with
  | none => exact hrest c hc
  | some =>
    obtain rfl := Option.some.inj hc
    decide

theorem numeral_append (hnumber : Number cs) (hends : Ends rest) :
    ∃ n, numeral (cs ++ rest) = .ok (n, rest) := by
  obtain @⟨minus', whole, fraction', exponent', hminus, hwhole, hfraction, hexponent⟩ := hnumber
  have hafter : ∀ c, (exponent' ++ rest).head? = some c → c.isDigit = false ∧ c ≠ '.' :=
    fun c => head_of_exponent hexponent hends
  have hfirst : ∀ c, (fraction' ++ (exponent' ++ rest)).head? = some c → c.isDigit = false :=
    fun c => head_of_fraction hfraction fun c hc => (hafter c hc).1
  obtain ⟨fraction, hfraction⟩ := fractionPart_append hfraction hafter
  obtain ⟨exponent, hexponent⟩ := exponentPart_append hexponent hends
  have hwhole' := wholePart_append hwhole hfirst
  simp only [List.append_assoc]
  rcases hminus with rfl | rfl
  · exact ⟨_, numeral_eq (minus_digits hwhole.1 _) hwhole' hfraction hexponent⟩
  · exact ⟨_, numeral_eq rfl hwhole' hfraction hexponent⟩

/-- Digits alone are a number with nothing but its whole part. -/
theorem numeral_whole (hwhole : WholeDigits cs) (hends : Ends rest) : numeral (cs ++ rest) =
    .ok ({ negative := false, whole := cs, fraction := none, exponent := none }, rest) :=
  numeral_eq (minus_digits hwhole.1 _) (wholePart_append hwhole fun _ hc => (hends.head hc).1)
    (fractionPart_none fun hc => (hends.head hc).2.1 rfl) (exponentPart_none hends)

theorem wholeDigits_toDigits (n : Nat) : WholeDigits (Nat.toDigits 10 n) := by
  refine ⟨⟨Nat.toDigits_ne_nil, fun c hc => ?_⟩, fun hzero => ?_⟩
  · exact Nat.isDigit_of_mem_toDigits (by decide) (by decide) hc
  · rw [Text.eq_zero_of_head?_toDigits (by decide) hzero]
    rfl

theorem decimal_toDigits (n : Nat) : decimal (Nat.toDigits 10 n) = n :=
  Text.foldl_toDigits (by decide) (fun _ => Nat.toNat_digitChar_sub_48_of_lt_ten) n

theorem le_foldl_decimal (digits : List Char) (value : Nat) :
    value ≤ digits.foldl (fun value digit => value * 10 + (digit.toNat - '0'.toNat)) value := by
  induction digits generalizing value with
  | nil => exact Nat.le_refl value
  | cons digit digits ih =>
    have hnext : value ≤ value * 10 + (digit.toNat - '0'.toNat) := by omega
    exact Nat.le_trans hnext (ih _)

namespace Numeral

/-- All digits are taken into account if the number is small enough. -/
theorem leading_of_small {value : Nat} (digits : List Char)
    (hsmall : digits.foldl (fun value digit => value * 10 + (digit.toNat - '0'.toNat)) value <
      UInt64.size) :
    leading value digits =
      (digits.foldl (fun value digit => value * 10 + (digit.toNat - '0'.toNat)) value, 0) := by
  induction digits generalizing value with
  | nil => rfl
  | cons digit digits ih =>
    rw [List.foldl_cons] at hsmall ⊢
    rw [leading, if_pos (Nat.lt_of_le_of_lt (le_foldl_decimal digits _) hsmall), ih hsmall]

theorem round53_le (value : Nat) : round53 value ≤ 3 * value := by
  by_cases hzero : value = 0
  · subst hzero
    decide
  · have hunit : Nat.pow 2 (value.log2 + 1 - 53) ≤ 2 * value := by
      have hlog := Nat.log2_self_le hzero
      have hpow : 2 ^ (value.log2 + 1 - 53) ≤ 2 ^ (value.log2 + 1) :=
        Nat.pow_le_pow_right (by decide) (Nat.sub_le _ _)
      rw [Nat.pow_succ] at hpow
      exact Nat.le_trans hpow (by omega)
    have hquotient := Nat.div_mul_le_self value (Nat.pow 2 (value.log2 + 1 - 53))
    rw [round53]
    split
    · rw [Nat.add_mul, Nat.one_mul]
      omega
    · omega

/-- A natural number below 2 to the 64th is small for a double. -/
theorem not_isTooLarge {digits : List Char} (hsmall : decimal digits < UInt64.size) :
    isTooLarge { negative := false, whole := digits, fraction := none, exponent := none } =
      false := by
  have hscaled : scaled { negative := false, whole := digits, fraction := none, exponent := none } =
      (decimal digits, 0) := by
    have hleading : leading 0 digits = (decimal digits, 0) := leading_of_small digits hsmall
    rw [scaled]
    dsimp only
    rw [hleading]
    rfl
  have hround := round53_le (decimal digits)
  have hone : round53 (Nat.pow 10 (Int.toNat 0)) = 1 := by decide
  have hbound : 3 * UInt64.size < Nat.pow 2 1024 - Nat.pow 2 970 := by
    decide +kernel
  rw [isTooLarge, hscaled]
  dsimp only
  rw [hone, Nat.mul_one]
  refine decide_eq_false ?_
  rintro ⟨-, -, hexponent | hlarge⟩
  · omega
  · omega

/-- A natural number comes to its value. -/
theorem natural?_of_small {digits : List Char} (hsmall : decimal digits < UInt64.size) :
    natural? { negative := false, whole := digits, fraction := none, exponent := none } =
      some (decimal digits) := by
  refine if_neg ?_
  simp [Nat.not_le_of_lt hsmall]

end Numeral

end LocalPlay.Json
