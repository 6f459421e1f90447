import LocalPlay.Json.Reader
import LocalPlay.Proofs.Json.Skipping

/-!
# What readers take

A reader takes a text for a value if it reads it as that value wherever it stands: after any blanks,
and before whatever may follow a value. Texts, flags and natural numbers are taken for what they are
written for.
-/

namespace LocalPlay.Json

variable {α β : Type} {blanks cs rest : List Char} {c : Char}

/-- The text is read with this result, wherever it stands. -/
def Reader.Takes (reader : Reader α) (value : List Char) (result : Except Flaw α) : Prop :=
  ∀ blanks rest, Blanks blanks → Ends rest →
    reader.read (blanks ++ (value ++ rest)) = result.map (·, rest)

namespace Reader

theorem takes_map {reader : Reader α} {result : Except Flaw α} (f : α → β)
    (htakes : reader.Takes cs result) : (reader.map f).Takes cs (result.map f) := by
  intro blanks rest hblanks hends
  show (reader.read _).map _ = _
  rw [htakes blanks rest hblanks hends]
  cases result with
  | error flaw => rfl
  | ok a => rfl

theorem takes_ofToken {fit : Token → Except Flaw α} {t : Token}
    (htoken : ∀ blanks rest, Blanks blanks → Ends rest →
      token (blanks ++ (cs ++ rest)) = .ok (t, rest)) : (ofToken fit).Takes cs (fit t) := by
  intro blanks rest hblanks hends
  rw [ofToken]
  dsimp only
  rw [htoken blanks rest hblanks hends]

theorem takes_text {text : String} (fit : String → Except Flaw α) (hquoted : Quoted text cs) :
    (ofText fit).Takes cs (fit text) := by
  refine takes_ofToken (t := .text text) fun blanks rest hblanks _ => ?_
  obtain ⟨inner, rfl, hstring⟩ := stringFrom_quoted hquoted rest
  rw [List.cons_append, token, skipBlank_append hblanks, skipBlank_cons (by decide)]
  simp [hstring, Except.map]

theorem takes_flag (value : Bool) : flag.Takes (toString value).toList (.ok value) := by
  refine takes_ofToken (t := .flag value) fun blanks rest hblanks _ => ?_
  rw [token, skipBlank_append hblanks]
  cases value with
  | true =>
    have hletters : (toString true).toList = ['t', 'r', 'u', 'e'] := rfl
    rw [hletters, List.cons_append, skipBlank_cons (by decide)]
    rfl
  | false =>
    have hletters : (toString false).toList = ['f', 'a', 'l', 's', 'e'] := rfl
    rw [hletters, List.cons_append, skipBlank_cons (by decide)]
    rfl

/-- Digits without a needless zero are taken for the number they come to, if it is small enough. -/
theorem takes_natural {bound : Nat} (hwhole : WholeDigits cs) (hsmall : decimal cs < bound)
    (hbound : bound ≤ UInt64.size) : (natural bound).Takes cs (.ok (decimal cs)) := by
  have hlt : decimal cs < UInt64.size := Nat.lt_of_lt_of_le hsmall hbound
  suffices hread : (natural bound).Takes cs
      (if decimal cs < bound then .ok (decimal cs) else .error .unfit) by
    rwa [if_pos hsmall] at hread
  refine takes_ofToken (t := .number (some (decimal cs))) fun blanks rest hblanks hends => ?_
  have hnumeral := numeral_whole hwhole hends
  obtain ⟨⟨hne, hall⟩, -⟩ := hwhole
  cases cs with
  | nil => exact absurd rfl hne
  | cons c tail =>
    have hdigit : c = '-' ∨ c.isDigit = true := .inr (hall c List.mem_cons_self)
    obtain ⟨hblank, harray, -, hobject, hquote, hn, ht, hf⟩ := start_of_number hdigit
    rw [List.cons_append] at hnumeral ⊢
    rw [token, skipBlank_append hblanks, skipBlank_cons hblank]
    dsimp only
    rw [if_neg harray, if_neg hobject, if_neg hquote, if_neg hn, if_neg ht, if_neg hf,
      if_pos hdigit, numberToken, hnumeral]
    dsimp only
    rw [Numeral.not_isTooLarge hlt, Numeral.natural?_of_small hlt]
    rfl

/-- The digits of a number are taken for it. -/
theorem takes_toString {bound n : Nat} (hn : n < bound) (hbound : bound ≤ UInt64.size) :
    (natural bound).Takes (toString n).toList (.ok n) := by
  have htakes := takes_natural (wholeDigits_toDigits n) (by rwa [decimal_toDigits]) hbound
  rwa [decimal_toDigits, ← Text.toList_toString] at htakes

/-- A whole text may have blanks around its value. -/
theorem whole_of_takes {reader : Reader α} {before after : List Char} {result : Except Flaw α}
    (htakes : reader.Takes cs result) (hbefore : Blanks before) (hafter : Blanks after) :
    reader.whole (before ++ cs ++ after) = result := by
  have hblank : skipBlank after = [] := by
    have happend := skipBlank_append hafter []
    rwa [List.append_nil] at happend
  rw [whole, List.append_assoc, htakes before after hbefore (.of_only_blanks hafter)]
  cases result with
  | error flaw => rfl
  | ok a => exact if_pos hblank

end Reader

end LocalPlay.Json
