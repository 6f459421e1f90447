import LocalPlay.Json.Numeral
import LocalPlay.Json.Quoted

/-!
# Skipping a JSON value

A value nobody asks for is passed over. It has to follow the grammar, but what it says does not
matter: its numbers may be of any size, and its strings may hold half surrogate pairs. Values may be
nested to any depth, so what is open is kept on a stack: `skipHead` goes into a value as far as its
first part that has something after it, `skipTail` closes what ends after a value, and `skipFrom`
alternates between the two.
-/

namespace LocalPlay.Json

/-- The rest of a string after its opening quote. -/
def skipString : Rest → Except Flaw Rest
  | [] => .error .truncated
  | c :: cs =>
    if c = '"' then
      .ok cs
    else if c = '\\' then
      match cs with
      | [] => .error .truncated
      | 'u' :: cs =>
        match h : codeUnit cs with
        | .error flaw => .error flaw
        | .ok (_, rest) =>
          have := codeUnit_lt h
          skipString rest
      | c :: cs => if (letterEscape? c).isSome then skipString cs else .error .malformed
    else if c.toNat < 0x20 then
      .error .malformed
    else
      skipString cs
termination_by cs => cs.length

theorem skipString_lt {cs rest : Rest} (h : skipString cs = .ok rest) : rest.length < cs.length := by
  fun_induction skipString cs <;> grind

/-- Numbers are skipped at one go: whatever is wrong with one, it is not a number. -/
def skipNumber (cs : Rest) : Except Flaw Rest :=
  match numeral cs with
  | .error _ => .error .malformed
  | .ok (_, rest) => .ok rest

theorem skipNumber_lt {cs rest : Rest} (h : skipNumber cs = .ok rest) : rest.length < cs.length := by
  have := @numeral_lt cs
  grind [skipNumber]

/-! ## Between values -/

/-- The opening quote of a key; where keys are expected, everything else is malformed. -/
def keyQuote (cs : Rest) : Except Flaw Rest :=
  match skipBlank cs with
  | [] => .error .truncated
  | c :: rest => if c = '"' then .ok rest else .error .malformed

theorem keyQuote_lt {cs rest : Rest} (h : keyQuote cs = .ok rest) : rest.length < cs.length := by
  have := @lt_of_skipBlank cs
  grind [keyQuote]

def colon (cs : Rest) : Except Flaw Rest :=
  match skipBlank cs with
  | [] => .error .truncated
  | c :: rest => if c = ':' then .ok rest else .error .malformed

theorem colon_lt {cs rest : Rest} (h : colon cs = .ok rest) : rest.length < cs.length := by
  have := @lt_of_skipBlank cs
  grind [colon]

/-- After an item of an array or object: true if a comma announces another, false if it is closed
here. -/
def another (closing : Char) (cs : Rest) : Except Flaw (Bool × Rest) :=
  match skipBlank cs with
  | [] => .error .truncated
  | c :: rest =>
    if c = ',' then .ok (true, rest) else if c = closing then .ok (false, rest) else .error .malformed

theorem another_lt {closing : Char} {cs rest : Rest} {more : Bool}
    (h : another closing cs = .ok (more, rest)) : rest.length < cs.length := by
  have := @lt_of_skipBlank cs
  grind [another]

/-- The closing bracket right after the opening one. -/
def closedAtOnce? (closing : Char) (cs : Rest) : Option Rest :=
  match skipBlank cs with
  | [] => none
  | c :: rest => if c = closing then some rest else none

theorem closedAtOnce?_lt {closing : Char} {cs rest : Rest} (h : closedAtOnce? closing cs = some rest) :
    rest.length < cs.length := by
  have := @lt_of_skipBlank cs
  grind [closedAtOnce?]

/-! ## Values -/

/-- What a value can be part of. -/
inductive Frame where
  | array
  | object
  deriving DecidableEq, Repr

def skipKey (cs : Rest) : Except Flaw Rest := do
  let cs ← keyQuote cs
  let cs ← skipString cs
  colon cs

theorem skipKey_lt {cs rest : Rest} (h : skipKey cs = .ok rest) : rest.length < cs.length := by
  obtain ⟨inside, hquote, h⟩ := ok_of_bind h
  obtain ⟨outside, hstring, hcolon⟩ := ok_of_bind h
  have := keyQuote_lt hquote
  have := skipString_lt hstring
  have := colon_lt hcolon
  omega

/-- Skips a string, a number or a name that starts with `c`; anything else is no value. -/
def skipScalar (c : Char) (rest : Rest) : Except Flaw Rest :=
  if c = '"' then skipString rest
  else if c = 'n' then word ['u', 'l', 'l'] rest
  else if c = 't' then word ['r', 'u', 'e'] rest
  else if c = 'f' then word ['a', 'l', 's', 'e'] rest
  else if c = '-' ∨ c.isDigit then skipNumber (c :: rest)
  else .error .malformed

theorem skipScalar_le {c : Char} {cs rest : Rest} (h : skipScalar c cs = .ok rest) :
    rest.length ≤ cs.length := by
  have := @skipString_lt cs rest
  have := @skipNumber_lt (c :: cs) rest
  have := fun letters => @word_le letters cs rest
  grind [skipScalar]

/-- Skips a scalar or an empty array or object and answers nothing, or goes into an array or object
up to its first value and answers what it went into. -/
def skipHead (cs : Rest) : Except Flaw (Option Frame × Rest) :=
  match skipBlank cs with
  | [] => .error .truncated
  | c :: rest =>
    if c = '[' then
      match closedAtOnce? ']' rest with
      | some rest => .ok (none, rest)
      | none => .ok (some .array, rest)
    else if c = '\x7b' then
      match closedAtOnce? '\x7d' rest with
      | some rest => .ok (none, rest)
      | none => (skipKey rest).map (some .object, ·)
    else
      (skipScalar c rest).map (none, ·)

theorem skipHead_lt {cs rest : Rest} {frame : Option Frame} (h : skipHead cs = .ok (frame, rest)) :
    rest.length < cs.length := by
  unfold skipHead at h
  split at h
  · cases h
  · next c after hblank =>
    have := lt_of_skipBlank hblank
    split at h
    · have := @closedAtOnce?_lt ']' after
      grind
    · split at h
      · split at h
        · have := @closedAtOnce?_lt '\x7d' after
          grind
        · obtain ⟨r, hr, hrest⟩ := ok_of_map h
          have := skipKey_lt hr
          grind
      · obtain ⟨r, hr, hrest⟩ := ok_of_map h
        have := skipScalar_le hr
        grind

/-- After a value: closes the frames that end here and goes to the next value. Without one, the
outermost value is over. -/
def skipTail : List Frame → Rest → Except Flaw (Option (List Frame) × Rest)
  | [], cs => .ok (none, cs)
  | .array :: outer, cs =>
    match another ']' cs with
    | .error flaw => .error flaw
    | .ok (true, rest) => .ok (some (.array :: outer), rest)
    | .ok (false, rest) => skipTail outer rest
  | .object :: outer, cs =>
    match another '\x7d' cs with
    | .error flaw => .error flaw
    | .ok (true, rest) => (skipKey rest).map (some (.object :: outer), ·)
    | .ok (false, rest) => skipTail outer rest

theorem skipTail_le {frames : List Frame} {cs rest : Rest} {next : Option (List Frame)}
    (h : skipTail frames cs = .ok (next, rest)) : rest.length ≤ cs.length := by
  fun_induction skipTail frames cs with
  | case1 => grind
  | case2 => cases h
  | case3 _ _ _ hmore => grind [another_lt hmore]
  | case4 _ _ _ hover ih => exact Nat.le_trans (ih h) (Nat.le_of_lt (another_lt hover))
  | case5 => cases h
  | case6 _ _ _ hmore =>
    obtain ⟨r, hr, hnext⟩ := ok_of_map h
    have := another_lt hmore
    have := skipKey_lt hr
    grind
  | case7 _ _ _ hover ih => exact Nat.le_trans (ih h) (Nat.le_of_lt (another_lt hover))

/-- Skips a value inside `frames`, and all that is left of them. -/
def skipFrom (frames : List Frame) (cs : Rest) : Except Flaw Rest :=
  match h : skipHead cs with
  | .error flaw => .error flaw
  | .ok (some frame, rest) =>
    have := skipHead_lt h
    skipFrom (frame :: frames) rest
  | .ok (none, middle) =>
    match h' : skipTail frames middle with
    | .error flaw => .error flaw
    | .ok (none, rest) => .ok rest
    | .ok (some frames, rest) =>
      have := skipHead_lt h
      have := skipTail_le h'
      skipFrom frames rest
termination_by cs.length

theorem skipFrom_lt {frames : List Frame} {cs rest : Rest} (h : skipFrom frames cs = .ok rest) :
    rest.length < cs.length := by
  fun_induction skipFrom frames cs with
  | case1 => cases h
  | case2 _ _ _ _ hhead _ ih => exact Nat.lt_trans (ih h) (skipHead_lt hhead)
  | case3 => cases h
  | case4 _ _ _ hhead _ htail =>
    cases h
    exact Nat.lt_of_le_of_lt (skipTail_le htail) (skipHead_lt hhead)
  | case5 _ _ _ hhead _ _ htail _ _ ih =>
    exact Nat.lt_trans (ih h) (Nat.lt_of_le_of_lt (skipTail_le htail) (skipHead_lt hhead))

def skipValue (cs : Rest) : Except Flaw Rest :=
  skipFrom [] cs

end LocalPlay.Json
