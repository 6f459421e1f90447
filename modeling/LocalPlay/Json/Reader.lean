import LocalPlay.Json.Skip

/-!
# Readers of JSON values

A reader takes a value of one type from the start of a text. Values that are one string, number or
flag are read through their token. A record is read from an object, whose members come in any order,
or from an array, whose elements come in the order of the fields; fields that are not there keep
their defaults. Members with other names are skipped, but a field may not come twice.
-/

namespace LocalPlay.Json

/-- What a value shows at its start: a scalar as a whole, of an array or object the bracket. -/
inductive Token where
  | null
  | flag (value : Bool)
  /-- The value only of natural numbers below 2 to the 64th. -/
  | number (value : Option Nat)
  | text (value : String)
  | openArray
  | openObject
  deriving DecidableEq, Repr

def numberToken (cs : Rest) : Except Flaw (Token × Rest) :=
  match numeral cs with
  | .error flaw => .error flaw
  | .ok (n, rest) => if n.isTooLarge then .error .malformed else .ok (.number n.natural?, rest)

def token (cs : Rest) : Except Flaw (Token × Rest) :=
  match skipBlank cs with
  | [] => .error .truncated
  | c :: rest =>
    if c = '[' then .ok (.openArray, rest)
    else if c = '\x7b' then .ok (.openObject, rest)
    else if c = '"' then (stringFrom [] rest).map fun (s, rest) => (.text s, rest)
    else if c = 'n' then (word ['u', 'l', 'l'] rest).map (.null, ·)
    else if c = 't' then (word ['r', 'u', 'e'] rest).map (.flag true, ·)
    else if c = 'f' then (word ['a', 'l', 's', 'e'] rest).map (.flag false, ·)
    else if c = '-' ∨ c.isDigit then numberToken (c :: rest)
    else .error .malformed

theorem token_lt {cs rest : Rest} {t : Token} (h : token cs = .ok (t, rest)) :
    rest.length < cs.length := by
  unfold token at h
  split at h
  · cases h
  · next c after hblank =>
    have start := lt_of_skipBlank hblank
    have ofWord {letters : List Char} {t' : Token}
        (hw : (word letters after).map (t', ·) = .ok (t, rest)) : rest.length < cs.length := by
      obtain ⟨r, hr, htoken⟩ := ok_of_map hw
      cases htoken
      exact Nat.lt_of_le_of_lt (word_le hr) start
    have ofText
        (hs : (stringFrom [] after).map (fun (s, rest) => (Token.text s, rest)) = .ok (t, rest)) :
        rest.length < cs.length := by
      obtain ⟨r, hr, htoken⟩ := ok_of_map hs
      cases htoken
      exact Nat.lt_trans (stringFrom_lt hr) start
    have ofNumber (hn : numberToken (c :: after) = .ok (t, rest)) : rest.length < cs.length := by
      unfold numberToken at hn
      split at hn
      · cases hn
      · next hnumeral =>
        have := numeral_lt hnumeral
        grind
    grind

/-- Takes a value from the start of a text. A value takes at least one character. -/
structure Reader (α : Type) where
  read : Rest → Except Flaw (α × Rest)
  shorter : ∀ {cs : Rest} {a : α} {rest : Rest}, read cs = .ok (a, rest) → rest.length < cs.length

namespace Reader

variable {α β : Type}

/-- A value that is one token. -/
def ofToken (fit : Token → Except Flaw α) : Reader α where
  read cs :=
    match token cs with
    | .error flaw => .error flaw
    | .ok (t, rest) => (fit t).map (·, rest)
  shorter := by
    intro cs a rest h
    split at h
    · cases h
    · next ht =>
      obtain ⟨_, _, hrest⟩ := ok_of_map h
      cases hrest
      exact token_lt ht

/-- A string that has to fit. -/
def ofText (fit : String → Except Flaw α) : Reader α :=
  ofToken fun
    | .text s => fit s
    | _ => .error .unfit

def text : Reader String :=
  ofText .ok

def flag : Reader Bool :=
  ofToken fun
    | .flag b => .ok b
    | _ => .error .unfit

/-- A natural number below `bound`, which is at most 2 to the 64th. -/
def natural (bound : Nat) : Reader Nat :=
  ofToken fun
    | .number (some n) => if n < bound then .ok n else .error .unfit
    | _ => .error .unfit

def map (f : α → β) (reader : Reader α) : Reader β where
  read cs := (reader.read cs).map fun (a, rest) => (f a, rest)
  shorter := by
    intro cs b rest h
    obtain ⟨⟨a, r⟩, hr, hb⟩ := ok_of_map h
    cases hb
    exact reader.shorter hr

end Reader

/-- A field of a record: its name, and a reader of its value that says how the record changes. -/
structure Field (σ : Type) where
  name : String
  reader : Reader (σ → σ)

def Field.of {σ α : Type} (name : String) (reader : Reader α) (set : α → σ → σ) : Field σ :=
  ⟨name, reader.map set⟩

namespace Record

variable {σ : Type}

/-- A record on its way: its value, and the names of the fields that were read. -/
structure Progress (σ : Type) where
  value : σ
  seen : List String

/-- Reads one member of an object. -/
def member (fields : List (Field σ)) (progress : Progress σ) (cs : Rest) :
    Except Flaw (Progress σ × Rest) := do
  let cs ← keyQuote cs
  let (name, cs) ← stringFrom [] cs
  match fields.find? (·.name == name) with
  | some field =>
    if name ∈ progress.seen then .error .unfit
    let cs ← colon cs
    let (set, cs) ← field.reader.read cs
    .ok (⟨set progress.value, name :: progress.seen⟩, cs)
  | none =>
    let cs ← colon cs
    let cs ← skipValue cs
    .ok (progress, cs)

theorem member_lt {fields : List (Field σ)} {progress next : Progress σ} {cs rest : Rest}
    (h : member fields progress cs = .ok (next, rest)) : rest.length < cs.length := by
  obtain ⟨inside, hquote, h⟩ := ok_of_bind h
  obtain ⟨⟨name, outside⟩, hstring, h⟩ := ok_of_bind h
  have := keyQuote_lt hquote
  have := stringFrom_lt hstring
  dsimp only at h
  split at h
  · next field _ =>
    split at h
    · cases h
    · obtain ⟨afterColon, hcolon, h⟩ := ok_of_bind h
      obtain ⟨⟨set, last⟩, hread, h⟩ := ok_of_bind h
      have := colon_lt hcolon
      have := field.reader.shorter hread
      cases h
      change last.length < cs.length
      omega
  · obtain ⟨afterColon, hcolon, h⟩ := ok_of_bind h
    obtain ⟨last, hskip, h⟩ := ok_of_bind h
    have := colon_lt hcolon
    have := skipFrom_lt hskip
    cases h
    omega

/-- The members of an object, of which there is at least one. -/
def members (fields : List (Field σ)) (progress : Progress σ) (cs : Rest) :
    Except Flaw (σ × Rest) :=
  match h : member fields progress cs with
  | .error flaw => .error flaw
  | .ok (progress, middle) =>
    match h' : another '\x7d' middle with
    | .error flaw => .error flaw
    | .ok (false, rest) => .ok (progress.value, rest)
    | .ok (true, rest) =>
      have := member_lt h
      have := another_lt h'
      members fields progress rest
termination_by cs.length

theorem members_lt {fields : List (Field σ)} {progress : Progress σ} {cs rest : Rest} {value : σ}
    (h : members fields progress cs = .ok (value, rest)) : rest.length < cs.length := by
  fun_induction members fields progress cs with
  | case1 => cases h
  | case2 => cases h
  | case3 _ _ _ _ hmember _ hover =>
    cases h
    exact Nat.lt_trans (another_lt hover) (member_lt hmember)
  | case4 _ _ _ _ hmember _ hmore _ _ ih =>
    exact Nat.lt_trans (ih h) (Nat.lt_trans (another_lt hmore) (member_lt hmember))

/-- The elements of an array, of which there is at least one and at most one for each field. -/
def elements (value : σ) : List (Field σ) → Rest → Except Flaw (σ × Rest)
  | [], _ => .error .malformed
  | field :: fields, cs =>
    match field.reader.read cs with
    | .error flaw => .error flaw
    | .ok (set, middle) =>
      match another ']' middle with
      | .error flaw => .error flaw
      | .ok (false, rest) => .ok (set value, rest)
      | .ok (true, rest) => elements (set value) fields rest

theorem elements_lt {fields : List (Field σ)} {cs rest : Rest} {value result : σ}
    (h : elements value fields cs = .ok (result, rest)) : rest.length < cs.length := by
  induction fields generalizing value cs with
  | nil => cases h
  | cons field fields ih =>
    rw [elements] at h
    split at h
    · cases h
    · next hread =>
      have first := field.reader.shorter hread
      split at h
      · cases h
      · next hover =>
        cases h
        exact Nat.lt_trans (another_lt hover) first
      · next hmore => exact Nat.lt_trans (ih h) (Nat.lt_trans (another_lt hmore) first)

/-- A record with these fields, starting from its default. -/
def reader (fields : List (Field σ)) (default : σ) : Reader σ where
  read cs :=
    match token cs with
    | .error flaw => .error flaw
    | .ok (.openObject, inside) =>
      match closedAtOnce? '\x7d' inside with
      | some rest => .ok (default, rest)
      | none => members fields ⟨default, []⟩ inside
    | .ok (.openArray, inside) =>
      match closedAtOnce? ']' inside with
      | some rest => .ok (default, rest)
      | none => elements default fields inside
    | .ok _ => .error .unfit
  shorter := by
    intro cs a rest h
    split at h
    · cases h
    · next inside ht =>
      have start := token_lt ht
      split at h
      · next hclosed =>
        cases h
        exact Nat.lt_trans (closedAtOnce?_lt hclosed) start
      · exact Nat.lt_trans (members_lt h) start
    · next inside ht =>
      have start := token_lt ht
      split at h
      · next hclosed =>
        cases h
        exact Nat.lt_trans (closedAtOnce?_lt hclosed) start
      · exact Nat.lt_trans (elements_lt h) start
    · cases h

end Record

/-- Reads a text that is one value, with nothing but blanks around it. -/
def Reader.whole {α : Type} (reader : Reader α) (cs : Rest) : Except Flaw α :=
  match reader.read cs with
  | .error flaw => .error flaw
  | .ok (a, rest) => if skipBlank rest = [] then .ok a else .error .malformed

end LocalPlay.Json
