import LocalPlay.Json.Basic
import LocalPlay.Text.Hex

/-!
# JSON strings

Inside its quotes a string holds every character but control characters, quotes and backslashes, and
escapes for those. A character by its number is one UTF-16 code unit, or a high surrogate and the
low surrogate that belongs to it; half a pair is malformed.
-/

namespace LocalPlay.Json

/-- The value of four hexadecimal digits. A text without four more bytes ends too early, whatever
they are. -/
def codeUnit : Rest → Except Flaw (Nat × Rest)
  | a :: b :: c :: d :: rest =>
    match Text.hexValue? a, Text.hexValue? b, Text.hexValue? c, Text.hexValue? d with
    | some a, some b, some c, some d => .ok (((a * 16 + b) * 16 + c) * 16 + d, rest)
    | _, _, _, _ => .error .malformed
  | cs => .error (if cs.foldr (fun c bytes => c.utf8Size + bytes) 0 < 4 then .truncated else .malformed)

theorem codeUnit_lt {cs rest : Rest} {unit : Nat} (h : codeUnit cs = .ok (unit, rest)) :
    rest.length < cs.length := by
  unfold codeUnit at h
  split at h
  · split at h
    · cases h
      simp only [List.length_cons]
      omega
    · cases h
  · cases h

def isHighSurrogate (unit : Nat) : Bool :=
  0xD800 ≤ unit && unit < 0xDC00

def isLowSurrogate (unit : Nat) : Bool :=
  0xDC00 ≤ unit && unit < 0xE000

/-- A character as one code unit, or as a high surrogate and a low one. -/
def codePoint (cs : Rest) : Except Flaw (Char × Rest) :=
  match codeUnit cs with
  | .error flaw => .error flaw
  | .ok (unit, cs) =>
    if isLowSurrogate unit then
      .error .malformed
    else if isHighSurrogate unit then
      match word ['\\', 'u'] cs with
      | .error flaw => .error flaw
      | .ok cs =>
        match codeUnit cs with
        | .error flaw => .error flaw
        | .ok (low, cs) =>
          if isLowSurrogate low then
            .ok (Char.ofNat (0x10000 + (unit - 0xD800) * 0x400 + (low - 0xDC00)), cs)
          else
            .error .malformed
    else
      .ok (Char.ofNat unit, cs)

theorem codePoint_lt {cs rest : Rest} {c : Char} (h : codePoint cs = .ok (c, rest)) :
    rest.length < cs.length := by
  unfold codePoint at h
  split at h
  · cases h
  · next unit middle hunit =>
    have first := codeUnit_lt hunit
    split at h
    · cases h
    · split at h
      · split at h
        · cases h
        · next after hword =>
          have second := word_le hword
          split at h
          · cases h
          · next low last hlow =>
            have third := codeUnit_lt hlow
            split at h
            · obtain ⟨-, rfl⟩ := Prod.mk.inj (Except.ok.inj h)
              omega
            · cases h
      · obtain ⟨-, rfl⟩ := Prod.mk.inj (Except.ok.inj h)
        exact first

/-- Escapes of one letter. -/
def letterEscape? : Char → Option Char
  | '"' => some '"'
  | '\\' => some '\\'
  | '/' => some '/'
  | 'b' => some '\x08'
  | 'f' => some '\x0c'
  | 'n' => some '\n'
  | 'r' => some '\r'
  | 't' => some '\t'
  | _ => none

/-- What follows a backslash. -/
def escaped : Rest → Except Flaw (Char × Rest)
  | [] => .error .truncated
  | c :: cs =>
    if c = 'u' then
      codePoint cs
    else
      match letterEscape? c with
      | some c => .ok (c, cs)
      | none => .error .malformed

theorem escaped_lt {cs rest : Rest} {c : Char} (h : escaped cs = .ok (c, rest)) :
    rest.length < cs.length := by
  unfold escaped at h
  split at h
  · cases h
  · split at h
    · exact Nat.lt_succ_of_lt (codePoint_lt h)
    · split at h
      · cases h
        simp
      · cases h

/-- The rest of a string after its opening quote; `found` are its characters so far, the last one
first. -/
def stringFrom (found : List Char) : Rest → Except Flaw (String × Rest)
  | [] => .error .truncated
  | c :: cs =>
    if c = '"' then
      .ok (String.ofList found.reverse, cs)
    else if c = '\\' then
      match h : escaped cs with
      | .error flaw => .error flaw
      | .ok (c, rest) =>
        have := escaped_lt h
        stringFrom (c :: found) rest
    else if c.toNat < 0x20 then
      .error .malformed
    else
      stringFrom (c :: found) cs
termination_by cs => cs.length

theorem stringFrom_lt {found : List Char} {cs rest : Rest} {text : String}
    (h : stringFrom found cs = .ok (text, rest)) : rest.length < cs.length := by
  fun_induction stringFrom found cs <;> grind

end LocalPlay.Json
