import LocalPlay.Json.Basic

/-!
# JSON numbers

A number may have a sign, a fraction and an exponent. Only those without any of the three are
natural numbers here. All others are fractional, even if nothing follows the point, and are held as
doubles by whoever reads them; a number too large for that is malformed.
-/

namespace LocalPlay.Json

/-- A number as it is written. -/
structure Numeral where
  negative : Bool
  whole : List Char
  /-- The digits after the point, if there is one. -/
  fraction : Option (List Char)
  exponent : Option Int

/-- At least one digit. -/
def digits (cs : Rest) : Except Flaw (List Char × Rest) :=
  if cs.takeWhile Char.isDigit = [] then
    .error (if cs = [] then .truncated else .malformed)
  else
    .ok (cs.takeWhile Char.isDigit, cs.dropWhile Char.isDigit)

theorem digits_lt {cs rest : Rest} {found : List Char} (h : digits cs = .ok (found, rest)) :
    rest.length < cs.length := by
  have total := congrArg List.length (List.takeWhile_append_dropWhile (p := Char.isDigit) (l := cs))
  rw [List.length_append] at total
  unfold digits at h
  split at h
  · cases h
  · next some =>
    cases h
    have := List.length_pos_iff.2 some
    omega

def decimal (digits : List Char) : Nat :=
  digits.foldl (fun value digit => value * 10 + (digit.toNat - '0'.toNat)) 0

/-- The digits before the point. Only zero itself begins with a zero. -/
def wholePart (cs : Rest) : Except Flaw (List Char × Rest) :=
  match digits cs with
  | .error flaw => .error flaw
  | .ok (found, rest) =>
    if found.head? = some '0' ∧ found ≠ ['0'] then .error .malformed else .ok (found, rest)

def fractionPart : Rest → Except Flaw (Option (List Char) × Rest)
  | [] => .ok (none, [])
  | c :: cs =>
    if c = '.' then
      match digits cs with
      | .error flaw => .error flaw
      | .ok (found, rest) => .ok (some found, rest)
    else
      .ok (none, c :: cs)

/-- Whether a sign is a minus, and what follows it; no sign is a plus. -/
def sign : Rest → Bool × Rest
  | [] => (false, [])
  | c :: cs => if c = '-' then (true, cs) else if c = '+' then (false, cs) else (false, c :: cs)

def exponentPart : Rest → Except Flaw (Option Int × Rest)
  | [] => .ok (none, [])
  | c :: cs =>
    if c = 'e' ∨ c = 'E' then
      match digits (sign cs).2 with
      | .error flaw => .error flaw
      | .ok (found, rest) => .ok (some (if (sign cs).1 then -decimal found else decimal found), rest)
    else
      .ok (none, c :: cs)

/-- Whether a number begins with a minus, and what follows it. -/
def minus : Rest → Bool × Rest
  | [] => (false, [])
  | c :: cs => if c = '-' then (true, cs) else (false, c :: cs)

def numeral (cs : Rest) : Except Flaw (Numeral × Rest) :=
  match wholePart (minus cs).2 with
  | .error flaw => .error flaw
  | .ok (whole, afterWhole) =>
    match fractionPart afterWhole with
    | .error flaw => .error flaw
    | .ok (fraction, afterFraction) =>
      match exponentPart afterFraction with
      | .error flaw => .error flaw
      | .ok (exponent, rest) => .ok ({ negative := (minus cs).1, whole, fraction, exponent }, rest)

theorem wholePart_lt {cs rest : Rest} {found : List Char} (h : wholePart cs = .ok (found, rest)) :
    rest.length < cs.length := by
  have := @digits_lt cs
  grind [wholePart]

theorem fractionPart_le {cs rest : Rest} {found : Option (List Char)}
    (h : fractionPart cs = .ok (found, rest)) : rest.length ≤ cs.length := by
  cases cs with
  | nil => grind [fractionPart]
  | cons c cs =>
    have := @digits_lt cs
    grind [fractionPart]

theorem sign_le (cs : Rest) : (sign cs).2.length ≤ cs.length := by
  cases cs <;> grind [sign]

theorem minus_le (cs : Rest) : (minus cs).2.length ≤ cs.length := by
  cases cs <;> grind [minus]

theorem exponentPart_le {cs rest : Rest} {found : Option Int}
    (h : exponentPart cs = .ok (found, rest)) : rest.length ≤ cs.length := by
  cases cs with
  | nil => grind [exponentPart]
  | cons c cs =>
    have := @digits_lt (sign cs).2
    have := sign_le cs
    grind [exponentPart]

theorem numeral_lt {cs rest : Rest} {n : Numeral} (h : numeral cs = .ok (n, rest)) :
    rest.length < cs.length := by
  have start := minus_le cs
  unfold numeral at h
  split at h
  · cases h
  · next whole afterWhole hwhole =>
    have first := wholePart_lt hwhole
    split at h
    · cases h
    · next fraction afterFraction hfraction =>
      have second := fractionPart_le hfraction
      split at h
      · cases h
      · next exponent afterExponent hexponent =>
        have third := exponentPart_le hexponent
        obtain ⟨-, rfl⟩ := Prod.mk.inj (Except.ok.inj h)
        omega

/-! ## What a number comes to -/

namespace Numeral

/-- Digits are taken into account as long as their value stays below 2 to the 64th; this many are
left over. -/
def leading (value : Nat) : List Char → Nat × Nat
  | [] => (value, 0)
  | digit :: rest =>
    let more := value * 10 + (digit.toNat - '0'.toNat)
    if more < UInt64.size then leading more rest else (value, rest.length + 1)

/-- The leading digits as a whole number, and the power of ten to multiply it with. -/
def scaled (n : Numeral) : Nat × Int :=
  let (value, left) := leading 0 n.whole
  let fraction := n.fraction.getD []
  let (value, unread) := leading value fraction
  (value, left - (fraction.length - unread : Nat) + n.exponent.getD 0)

/-- The nearest number with at most 53 binary digits before its zeros; a tie goes to the even one.
-/
def round53 (value : Nat) : Nat :=
  let spare := value.log2 + 1 - 53
  let unit := Nat.pow 2 spare
  let quotient := value / unit
  let twice := 2 * (value % unit)
  let up := unit < twice ∨ (unit = twice ∧ quotient % 2 = 1)
  (if up then quotient + 1 else quotient) * unit

/-- The product of the rounded digits and the rounded power of ten is beyond the doubles. -/
def isTooLarge (n : Numeral) : Bool :=
  let (value, exponent) := n.scaled
  value ≠ 0 ∧ 0 ≤ exponent ∧
    (308 < exponent ∨
      Nat.pow 2 1024 - Nat.pow 2 970 ≤ round53 value * round53 (Nat.pow 10 exponent.toNat))

/-- The value of a number that is natural and below 2 to the 64th. -/
def natural? (n : Numeral) : Option Nat :=
  if n.negative ∨ n.fraction.isSome ∨ n.exponent.isSome ∨ UInt64.size ≤ decimal n.whole then none
  else some (decimal n.whole)

end Numeral

end LocalPlay.Json
