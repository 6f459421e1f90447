/-!
# The digits of a number

A number in any base begins with a zero only if it is zero, and its digits give it back, in whatever
way the value of a digit is computed. Readers take digits up to the first character that is none.
-/

namespace LocalPlay.Text

variable {base n : Nat}

/-- Said of the first character only. -/
theorem forall_head {P : Char → Prop} {c : Char} (hc : P c) (rest : List Char) :
    ∀ d, (c :: rest).head? = some d → P d := by
  intro d hd
  obtain rfl := Option.some.inj hd
  exact hc

/-- What is taken ends where the rest begins. -/
theorem span_append {p : Char → Bool} {cs rest : List Char} (hcs : ∀ c ∈ cs, p c = true)
    (hrest : ∀ c, rest.head? = some c → p c = false) :
    (cs ++ rest).takeWhile p = cs ∧ (cs ++ rest).dropWhile p = rest := by
  rw [List.takeWhile_append_of_pos hcs, List.dropWhile_append_of_pos hcs]
  cases rest with
  | nil => simp
  | cons c rest => simp [hrest c rfl]

/-- The last digit comes off, or is the only one. -/
theorem toDigits_induction (hbase : 1 < base) {P : Nat → List Char → Prop}
    (hdigit : ∀ n, n < base → P n [n.digitChar])
    (hmore : ∀ n digits, base ≤ n → P (n / base) digits →
      P n (digits ++ [(n % base).digitChar])) (n : Nat) : P n (Nat.toDigits base n) := by
  induction n using Nat.strongRecOn with
  | _ n ih =>
    by_cases hn : n < base
    · rw [Nat.toDigits_of_lt_base hn]
      exact hdigit n hn
    · have hle := Nat.le_of_not_lt hn
      rw [Nat.toDigits_of_base_le hbase hle]
      exact hmore n _ hle (ih _ (Nat.div_lt_self (by omega) hbase))

theorem exists_digit_of_mem (hbase : 1 < base) :
    ∀ c ∈ Nat.toDigits base n, ∃ digit, digit < base ∧ c = digit.digitChar := by
  refine toDigits_induction hbase (P := fun _ digits =>
    ∀ c ∈ digits, ∃ digit, digit < base ∧ c = digit.digitChar) ?_ ?_ n
  · intro n hn c hc
    exact ⟨n, hn, List.mem_singleton.mp hc⟩
  · intro n digits _ hdigits c hc
    rcases List.mem_append.mp hc with hc | hc
    · exact hdigits c hc
    · exact ⟨n % base, Nat.mod_lt _ (by omega), List.mem_singleton.mp hc⟩

theorem foldl_toDigits (hbase : 1 < base) {value : Char → Nat}
    (hvalue : ∀ digit, digit < base → value digit.digitChar = digit) (n : Nat) :
    (Nat.toDigits base n).foldl (fun v c => v * base + value c) 0 = n := by
  refine toDigits_induction hbase (P := fun n digits =>
    digits.foldl (fun v c => v * base + value c) 0 = n) ?_ ?_ n
  · intro n hn
    simp [hvalue n hn]
  · intro n digits _ hdigits
    rw [List.foldl_append, hdigits, List.foldl_cons, List.foldl_nil,
      hvalue _ (Nat.mod_lt _ (by omega)), Nat.mul_comm]
    exact Nat.div_add_mod n base

theorem eq_zero_of_head?_toDigits (hbase : 1 < base) :
    (Nat.toDigits base n).head? = some '0' → n = 0 := by
  refine (toDigits_induction hbase (P := fun n digits =>
    digits ≠ [] ∧ (digits.head? = some '0' → n = 0)) ?_ ?_ n).2
  · intro n _
    simp
  · intro n digits hle hdigits
    refine ⟨by simp, fun hhead => ?_⟩
    have hsame : (digits ++ [(n % base).digitChar]).head? = digits.head? := by
      rw [List.head?_append, Option.or_of_isSome (by simpa using hdigits.1)]
    have hzero := hdigits.2 (hsame ▸ hhead)
    rw [Nat.div_eq_zero_iff] at hzero
    omega

theorem toList_toString (n : Nat) : (toString n).toList = Nat.toDigits 10 n := by
  rw [Nat.toString_eq_ofList_toDigits, String.toList_ofList]

end LocalPlay.Text
