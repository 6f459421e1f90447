import LocalPlay.Json.Numeral
import LocalPlay.Json.Quoted

/-!
# The grammar of JSON

Which texts are JSON, said without a reader. A text in quotes is spelled character by character: a
character stands for itself or is escaped, by a letter, by its number, or by the two halves of a
surrogate pair. Where only the form counts, halves need not belong together. Blanks may stand around
everything but inside of texts, numbers and names. Values are nested, so values, the elements of an
array and the members of an object are defined together, as parts.

An object can also be seen from outside, as a list of members: the name of each, whatever way it is
spelled, and the text of its value. The members of a record are its attributes. They come in any
order, those that have their default may be missing, and others are no part of the record.
-/

namespace LocalPlay.Json

def Blanks (cs : List Char) : Prop :=
  ∀ c ∈ cs, isBlank c = true

instance (cs : List Char) : Decidable (Blanks cs) :=
  List.decidableBAll _ cs

/-! ## Texts -/

/-- Four hexadecimal digits with this value. -/
def UnitDigits (unit : Nat) (cs : List Char) : Prop :=
  ∃ a b c d i j k l, cs = [a, b, c, d] ∧ Text.hexValue? a = some i ∧ Text.hexValue? b = some j ∧
    Text.hexValue? c = some k ∧ Text.hexValue? d = some l ∧
    unit = ((i * 16 + j) * 16 + k) * 16 + l

/-- A character that may stand for itself in a text. -/
def isPlain (c : Char) : Bool :=
  0x20 ≤ c.toNat && c != '"' && c != '\\'

/-- One character of a text, and what may be written for it. -/
inductive Spelling : Char → List Char → Prop
  | plain {c : Char} (hplain : isPlain c = true) : Spelling c [c]
  | letter {letter c : Char} (hletter : letterEscape? letter = some c) : Spelling c ['\\', letter]
  | unit {c : Char} {digits : List Char} (hdigits : UnitDigits c.toNat digits) :
    Spelling c ('\\' :: 'u' :: digits)
  | pair {c : Char} {high low : Nat} {highDigits lowDigits : List Char}
      (hhigh : UnitDigits high highDigits) (hlow : UnitDigits low lowDigits)
      (hhigh' : 0xD800 ≤ high ∧ high < 0xDC00) (hlow' : 0xDC00 ≤ low ∧ low < 0xE000)
      (hc : c.toNat = 0x10000 + (high - 0xD800) * 0x400 + (low - 0xDC00)) :
    Spelling c ('\\' :: 'u' :: highDigits ++ '\\' :: 'u' :: lowDigits)

/-- Characters one after the other. -/
inductive Spelled : List Char → List Char → Prop
  | nil : Spelled [] []
  | cons {c : Char} {text spelling rest : List Char} (hc : Spelling c spelling)
      (hrest : Spelled text rest) : Spelled (c :: text) (spelling ++ rest)

/-- The text in quotes. -/
def Quoted (text : String) (cs : List Char) : Prop :=
  ∃ inner, Spelled text.toList inner ∧ cs = '"' :: inner ++ ['"']

/-- Plain characters need no escapes. -/
theorem spelled_of_plain {text : List Char} (hplain : text.all isPlain = true) :
    Spelled text text := by
  induction text with
  | nil => exact .nil
  | cons c text ih =>
    rw [List.all_cons, Bool.and_eq_true] at hplain
    exact .cons (.plain hplain.1) (ih hplain.2)

theorem quoted_of_plain {text : String} (hplain : text.toList.all isPlain = true) :
    Quoted text ('"' :: text.toList ++ ['"']) :=
  ⟨text.toList, spelled_of_plain hplain, rfl⟩

/-- What has the form of a text between its quotes, whether or not it is one. -/
inductive TextForm : List Char → Prop
  | nil : TextForm []
  | plain {c : Char} {rest : List Char} (hplain : isPlain c = true) (hrest : TextForm rest) :
    TextForm (c :: rest)
  | letter {letter c : Char} {rest : List Char} (hletter : letterEscape? letter = some c)
      (hrest : TextForm rest) : TextForm ('\\' :: letter :: rest)
  | unit {unit : Nat} {digits rest : List Char} (hdigits : UnitDigits unit digits)
      (hrest : TextForm rest) : TextForm ('\\' :: 'u' :: digits ++ rest)

/-! ## Numbers -/

def Digits (cs : List Char) : Prop :=
  cs ≠ [] ∧ ∀ c ∈ cs, c.isDigit = true

/-- Digits without a needless zero in front. -/
def WholeDigits (cs : List Char) : Prop :=
  Digits cs ∧ (cs.head? = some '0' → cs = ['0'])

inductive Fraction : List Char → Prop
  | none : Fraction []
  | some {digits : List Char} (hdigits : Digits digits) : Fraction ('.' :: digits)

inductive Exponent : List Char → Prop
  | none : Exponent []
  | some {e : Char} {sign digits : List Char} (he : e = 'e' ∨ e = 'E')
      (hsign : sign = [] ∨ sign = ['+'] ∨ sign = ['-']) (hdigits : Digits digits) :
    Exponent (e :: sign ++ digits)

inductive Number : List Char → Prop
  | intro {minus whole fraction exponent : List Char} (hminus : minus = [] ∨ minus = ['-'])
      (hwhole : WholeDigits whole) (hfraction : Fraction fraction)
      (hexponent : Exponent exponent) : Number (minus ++ whole ++ fraction ++ exponent)

/-! ## Values -/

inductive Part where
  | value
  /-- What stands between the brackets of an array that is not empty. -/
  | elements
  /-- What stands between the braces of an object that is not empty. -/
  | members

inductive WellFormed : Part → List Char → Prop
  | null : WellFormed .value ['n', 'u', 'l', 'l']
  | yes : WellFormed .value ['t', 'r', 'u', 'e']
  | no : WellFormed .value ['f', 'a', 'l', 's', 'e']
  | number {cs : List Char} (hnumber : Number cs) : WellFormed .value cs
  | text {inner : List Char} (htext : TextForm inner) : WellFormed .value ('"' :: inner ++ ['"'])
  | emptyArray {blanks : List Char} (hblanks : Blanks blanks) :
    WellFormed .value ('[' :: blanks ++ [']'])
  | array {cs : List Char} (helements : WellFormed .elements cs) :
    WellFormed .value ('[' :: cs ++ [']'])
  | emptyObject {blanks : List Char} (hblanks : Blanks blanks) :
    WellFormed .value ('\x7b' :: blanks ++ ['\x7d'])
  | object {cs : List Char} (hmembers : WellFormed .members cs) :
    WellFormed .value ('\x7b' :: cs ++ ['\x7d'])
  | element {before value after : List Char} (hbefore : Blanks before)
      (hvalue : WellFormed .value value) (hafter : Blanks after) :
    WellFormed .elements (before ++ value ++ after)
  | elements {before value after rest : List Char} (hbefore : Blanks before)
      (hvalue : WellFormed .value value) (hafter : Blanks after)
      (hrest : WellFormed .elements rest) :
    WellFormed .elements (before ++ value ++ after ++ ',' :: rest)
  | member {before name between space value after : List Char} (hbefore : Blanks before)
      (hname : TextForm name) (hbetween : Blanks between) (hspace : Blanks space)
      (hvalue : WellFormed .value value) (hafter : Blanks after) :
    WellFormed .members
      (before ++ '"' :: name ++ '"' :: between ++ ':' :: space ++ value ++ after)
  | members {before name between space value after rest : List Char} (hbefore : Blanks before)
      (hname : TextForm name) (hbetween : Blanks between) (hspace : Blanks space)
      (hvalue : WellFormed .value value) (hafter : Blanks after)
      (hrest : WellFormed .members rest) :
    WellFormed .members
      (before ++ '"' :: name ++ '"' :: between ++ ':' :: space ++ value ++ after ++ ',' :: rest)

/-! ## Objects -/

/-- A member of an object: its name, and the text of its value. -/
abbrev Member :=
  String × List Char

/-- One member with all the blanks around its parts. -/
inductive MemberText : Member → List Char → Prop
  | intro {name : String} {before quoted between space value after : List Char}
      (hbefore : Blanks before) (hname : Quoted name quoted) (hbetween : Blanks between)
      (hspace : Blanks space) (hafter : Blanks after) :
    MemberText (name, value) (before ++ quoted ++ between ++ ':' :: space ++ value ++ after)

inductive MembersText : List Member → List Char → Prop
  | single {m : Member} {cs : List Char} (hm : MemberText m cs) : MembersText [m] cs
  | cons {m : Member} {members : List Member} {cs rest : List Char} (hm : MemberText m cs)
      (hrest : MembersText members rest) : MembersText (m :: members) (cs ++ ',' :: rest)

/-- An object with these members. -/
inductive ObjectText : List Member → List Char → Prop
  | empty {blanks : List Char} (hblanks : Blanks blanks) :
    ObjectText [] ('\x7b' :: blanks ++ ['\x7d'])
  | members {members : List Member} {cs : List Char} (hmembers : MembersText members cs) :
    ObjectText members ('\x7b' :: cs ++ ['\x7d'])

/-! ## Records -/

/-- A part of a record: its name, and what may be written for its value. -/
structure Attribute (σ : Type) where
  {Value : Type}
  name : String
  get : σ → Value
  Writes : Value → List Char → Prop

/-- The record has these members, besides others that are not its own. -/
structure Rendered {σ : Type} (attributes : List (Attribute σ)) (default record : σ)
    (members : List Member) : Prop where
  once : members.Pairwise fun first second =>
    ∀ a ∈ attributes, first.1 = a.name → second.1 ≠ a.name
  written : ∀ a ∈ attributes, ∀ m ∈ members, m.1 = a.name → a.Writes (a.get record) m.2
  omitted : ∀ a ∈ attributes, (∀ m ∈ members, m.1 ≠ a.name) → a.get record = a.get default
  other : ∀ m ∈ members, (∀ a ∈ attributes, m.1 ≠ a.name) → WellFormed .value m.2

/-- An object that is the record. -/
def Renders {σ : Type} (attributes : List (Attribute σ)) (default record : σ)
    (cs : List Char) : Prop :=
  ∃ members, ObjectText members cs ∧ Rendered attributes default record members

end LocalPlay.Json
