/-!
# Reading JSON from the left

Readers take what is left of a text and give what they found and what is left after it, or the flaw
that stopped them. A text may have several flaws. The first one from the left counts, so a reader
looks no further than it has to before it complains.

A reader leaves less than it was given, or at least not more, which a lemma beside it says; readers
that repeat others end because of that.
-/

namespace LocalPlay.Json

/-- What is wrong where reading stopped. -/
inductive Flaw where
  /-- Not JSON. -/
  | malformed
  /-- The text ends too early. -/
  | truncated
  /-- JSON so far, but not what belongs here. -/
  | unfit
  /-- Of the right kind, but not allowed. -/
  | refused (reason : String)
  deriving DecidableEq, Repr

theorem ok_of_bind {α β : Type} {x : Except Flaw α} {f : α → Except Flaw β} {b : β}
    (h : x >>= f = .ok b) : ∃ a, x = .ok a ∧ f a = .ok b := by
  cases x with
  | error flaw => cases h
  | ok a => exact ⟨a, rfl, h⟩

theorem ok_of_map {α β : Type} {x : Except Flaw α} {f : α → β} {b : β}
    (h : x.map f = .ok b) : ∃ a, x = .ok a ∧ f a = b := by
  cases x with
  | error flaw => cases h
  | ok a => exact ⟨a, rfl, Except.ok.inj h⟩

/-- What is left of a text. -/
abbrev Rest := List Char

def isBlank (c : Char) : Bool :=
  c == ' ' || c == '\t' || c == '\n' || c == '\r'

def skipBlank (cs : Rest) : Rest :=
  cs.dropWhile isBlank

theorem skipBlank_le (cs : Rest) : (skipBlank cs).length ≤ cs.length :=
  (List.dropWhile_suffix isBlank).length_le

theorem lt_of_skipBlank {cs : Rest} {c : Char} {rest : Rest} (h : skipBlank cs = c :: rest) :
    rest.length < cs.length := by
  have := skipBlank_le cs
  rw [h, List.length_cons] at this
  omega

/-- The letters of a name that JSON knows. -/
def word : List Char → Rest → Except Flaw Rest
  | [], cs => .ok cs
  | _ :: _, [] => .error .truncated
  | letter :: letters, c :: cs => if c = letter then word letters cs else .error .malformed

theorem word_le {letters : List Char} {cs rest : Rest} (h : word letters cs = .ok rest) :
    rest.length ≤ cs.length := by
  induction letters generalizing cs with
  | nil => simp_all [word]
  | cons letter letters ih =>
    cases cs with
    | nil => simp [word] at h
    | cons c cs =>
      rw [word] at h
      split at h
      · exact Nat.le_succ_of_le (ih h)
      · cases h

end LocalPlay.Json
