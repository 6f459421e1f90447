import LocalPlay.Proofs.Json.Scalars

/-!
# Skipping a value

A well-formed value is skipped, whatever it is, and what is open around it is resumed after it:
`skipValue_append`. The induction is over the grammar, with one statement for each part of a value:
the elements of an array and the members of an object are skipped with their brackets.
-/

namespace LocalPlay.Json

/-- What is done after a value inside `frames`. -/
def resume (frames : List Frame) (rest : Rest) : Except Flaw Rest :=
  match skipTail frames rest with
  | .error flaw => .error flaw
  | .ok (none, rest) => .ok rest
  | .ok (some frames, rest) => skipFrom frames rest

variable {blanks cs inner rest : List Char} {c : Char} {frames : List Frame}

theorem skipFrom_eq_of_none (hhead : skipHead cs = .ok (none, rest)) :
    skipFrom frames cs = resume frames rest := by
  rw [skipFrom]
  split
  · next hflaw => rw [hhead] at hflaw; cases hflaw
  · next hsome => rw [hhead] at hsome; cases hsome
  · next hnone =>
    rw [hhead] at hnone
    cases hnone
    rw [resume]
    split
    · next hflaw => simp only [hflaw]
    · next hover => simp only [hover]
    · next hmore => simp only [hmore]

theorem skipFrom_eq_of_some {frame : Frame} (hhead : skipHead cs = .ok (some frame, rest)) :
    skipFrom frames cs = skipFrom (frame :: frames) rest := by
  rw [skipFrom]
  split
  · next hflaw => rw [hhead] at hflaw; cases hflaw
  · next hsome =>
    rw [hhead] at hsome
    cases hsome
    rfl
  · next hnone => rw [hhead] at hnone; cases hnone

/-! ### Between values -/

theorem another_comma (hblanks : Blanks blanks) (closing : Char) (rest : List Char) :
    another closing (blanks ++ ',' :: rest) = .ok (true, rest) := by
  rw [another, skipBlank_append hblanks, skipBlank_cons (by decide)]
  rfl

theorem another_closing {closing : Char} (hclosing : closing = ']' ∨ closing = '\x7d')
    (hblanks : Blanks blanks) (rest : List Char) :
    another closing (blanks ++ closing :: rest) = .ok (false, rest) := by
  rcases hclosing with rfl | rfl
  · rw [another, skipBlank_append hblanks, skipBlank_cons (by decide)]
    rfl
  · rw [another, skipBlank_append hblanks, skipBlank_cons (by decide)]
    rfl

theorem colon_append (hblanks : Blanks blanks) (rest : List Char) :
    colon (blanks ++ ':' :: rest) = .ok rest := by
  rw [colon, skipBlank_append hblanks, skipBlank_cons (by decide)]
  rfl

theorem keyQuote_append (hblanks : Blanks blanks) (rest : List Char) :
    keyQuote (blanks ++ '"' :: rest) = .ok rest := by
  rw [keyQuote, skipBlank_append hblanks, skipBlank_cons (by decide)]
  rfl

theorem closedAtOnce?_append {closing : Char} (hclosing : closing = ']' ∨ closing = '\x7d')
    (hblanks : Blanks blanks) (rest : List Char) :
    closedAtOnce? closing (blanks ++ closing :: rest) = some rest := by
  rcases hclosing with rfl | rfl
  · rw [closedAtOnce?, skipBlank_append hblanks, skipBlank_cons (by decide)]
    rfl
  · rw [closedAtOnce?, skipBlank_append hblanks, skipBlank_cons (by decide)]
    rfl

theorem closedAtOnce?_eq_none {closing : Char} (hblanks : Blanks blanks)
    (hc : isBlank c = false ∧ c ≠ closing) (rest : List Char) :
    closedAtOnce? closing (blanks ++ c :: rest) = none := by
  rw [closedAtOnce?, skipBlank_append hblanks, skipBlank_cons hc.1]
  exact if_neg hc.2

theorem skipKey_append {before name between : List Char} (hbefore : Blanks before)
    (hname : TextForm name) (hbetween : Blanks between) (rest : List Char) :
    skipKey (before ++ '"' :: name ++ '"' :: between ++ ':' :: rest) = .ok rest := by
  simp only [List.append_assoc, List.cons_append]
  rw [skipKey, keyQuote_append hbefore]
  simp only [bind, Except.bind]
  rw [skipString_form hname]
  exact colon_append hbetween rest

/-! ### Values -/

theorem skipHead_scalar (hblanks : Blanks blanks) (hblank : isBlank c = false) (harray : c ≠ '[')
    (hobject : c ≠ '\x7b') (hscalar : skipScalar c cs = .ok rest) :
    skipHead (blanks ++ c :: cs) = .ok (none, rest) := by
  rw [skipHead, skipBlank_append hblanks, skipBlank_cons hblank]
  dsimp only
  rw [if_neg harray, if_neg hobject, hscalar]
  rfl

/-- A number begins with a minus or a digit, and nothing else does. -/
theorem start_of_number (hc : c = '-' ∨ c.isDigit = true) :
    isBlank c = false ∧ c ≠ '[' ∧ c ≠ ']' ∧ c ≠ '\x7b' ∧ c ≠ '"' ∧ c ≠ 'n' ∧ c ≠ 't' ∧ c ≠ 'f' := by
  have hne (d : Char) (hd : d ≠ '-') (hdigit : d.isDigit = false) : c ≠ d := by
    rintro rfl
    rcases hc with hminus | hdigit'
    · exact hd hminus
    · rw [hdigit] at hdigit'
      cases hdigit'
  refine ⟨?_, hne _ (by decide) (by decide), hne _ (by decide) (by decide),
    hne _ (by decide) (by decide), hne _ (by decide) (by decide), hne _ (by decide) (by decide),
    hne _ (by decide) (by decide), hne _ (by decide) (by decide)⟩
  simp [isBlank, hne ' ' (by decide) (by decide), hne '\t' (by decide) (by decide),
    hne '\n' (by decide) (by decide), hne '\r' (by decide) (by decide)]

theorem exists_start_of_number (hnumber : Number cs) :
    ∃ c tail, cs = c :: tail ∧ (c = '-' ∨ c.isDigit = true) := by
  obtain @⟨minus', whole, fraction', exponent', hminus, hwhole, -, -⟩ := hnumber
  obtain ⟨⟨hne, hall⟩, -⟩ := hwhole
  rcases hminus with rfl | rfl
  · cases whole with
    | nil => exact absurd rfl hne
    | cons c whole => exact ⟨c, _, rfl, .inr (hall c List.mem_cons_self)⟩
  · exact ⟨'-', _, rfl, .inl rfl⟩

theorem skipHead_number (hblanks : Blanks blanks) (hnumber : Number cs) (hends : Ends rest) :
    skipHead (blanks ++ (cs ++ rest)) = .ok (none, rest) := by
  obtain ⟨n, hnumeral⟩ := numeral_append hnumber hends
  obtain ⟨c, tail, rfl, hc⟩ := exists_start_of_number hnumber
  obtain ⟨hblank, harray, -, hobject, hquote, hn, ht, hf⟩ := start_of_number hc
  rw [List.cons_append] at hnumeral ⊢
  refine skipHead_scalar hblanks hblank harray hobject ?_
  rw [skipScalar, if_neg hquote, if_neg hn, if_neg ht, if_neg hf, if_pos hc, skipNumber, hnumeral]

/-- A value begins with something that is neither a blank nor the end of an array. -/
theorem exists_start_of_value (hvalue : WellFormed .value cs) :
    ∃ c tail, cs = c :: tail ∧ isBlank c = false ∧ c ≠ ']' := by
  generalize hpart : Part.value = part at hvalue
  cases hvalue with
  | number hnumber =>
    obtain ⟨c, tail, rfl, hc⟩ := exists_start_of_number hnumber
    obtain ⟨hblank, -, hclosing, -⟩ := start_of_number hc
    exact ⟨c, tail, rfl, hblank, hclosing⟩
  | element => cases hpart
  | elements => cases hpart
  | member => cases hpart
  | members => cases hpart
  | _ => exact ⟨_, _, rfl, by decide, by decide⟩

theorem not_closed_of_value {before value : List Char} (hbefore : Blanks before)
    (hvalue : WellFormed .value value) (rest : List Char) :
    closedAtOnce? ']' (before ++ (value ++ rest)) = none := by
  obtain ⟨c, tail, rfl, hc⟩ := exists_start_of_value hvalue
  exact closedAtOnce?_eq_none hbefore hc _

/-- What skipping does with a part of a value. -/
def Skips : Part → List Char → Prop
  | .value, cs => ∀ frames blanks rest, Blanks blanks → Ends rest →
      skipFrom frames (blanks ++ (cs ++ rest)) = resume frames rest
  | .elements, cs => ∀ frames rest, closedAtOnce? ']' (cs ++ ']' :: rest) = none ∧
      skipFrom (.array :: frames) (cs ++ ']' :: rest) = resume frames rest
  | .members, cs => ∀ frames rest, closedAtOnce? '\x7d' (cs ++ '\x7d' :: rest) = none ∧
      ∃ inside, skipKey (cs ++ '\x7d' :: rest) = .ok inside ∧
        skipFrom (.object :: frames) inside = resume frames rest

theorem skipHead_array (hblanks : Blanks blanks) (cs : List Char) :
    skipHead (blanks ++ '[' :: cs) = match closedAtOnce? ']' cs with
      | some rest => .ok (none, rest)
      | none => .ok (some .array, cs) := by
  rw [skipHead, skipBlank_append hblanks, skipBlank_cons (by decide)]
  rfl

theorem skipHead_object (hblanks : Blanks blanks) (cs : List Char) :
    skipHead (blanks ++ '\x7b' :: cs) = match closedAtOnce? '\x7d' cs with
      | some rest => .ok (none, rest)
      | none => (skipKey cs).map (some .object, ·) := by
  rw [skipHead, skipBlank_append hblanks, skipBlank_cons (by decide)]
  rfl

theorem skips_scalar (hblank : isBlank c = false) (harray : c ≠ '[') (hobject : c ≠ '\x7b')
    (hscalar : ∀ rest, skipScalar c (cs ++ rest) = .ok rest) : Skips .value (c :: cs) := by
  intro frames blanks rest hblanks _
  exact skipFrom_eq_of_none (skipHead_scalar hblanks hblank harray hobject (hscalar rest))

theorem resume_comma {after : List Char} (hafter : Blanks after) (rest : List Char) :
    resume (.array :: frames) (after ++ ',' :: rest) = skipFrom (.array :: frames) rest := by
  rw [resume, skipTail, another_comma hafter]

theorem resume_bracket {after : List Char} (hafter : Blanks after) (rest : List Char) :
    resume (.array :: frames) (after ++ ']' :: rest) = resume frames rest := by
  rw [resume, skipTail, another_closing (.inl rfl) hafter]
  rfl

theorem resume_brace {after : List Char} (hafter : Blanks after) (rest : List Char) :
    resume (.object :: frames) (after ++ '\x7d' :: rest) = resume frames rest := by
  rw [resume, skipTail, another_closing (.inr rfl) hafter]
  rfl

theorem resume_member {after inside : List Char} (hafter : Blanks after)
    (hkey : skipKey rest = .ok inside) :
    resume (.object :: frames) (after ++ ',' :: rest) = skipFrom (.object :: frames) inside := by
  rw [resume, skipTail, another_comma hafter]
  dsimp only
  rw [hkey]
  rfl

theorem skips {part : Part} (hpart : WellFormed part cs) : Skips part cs := by
  induction hpart with
  | null => exact skips_scalar (by decide) (by decide) (by decide) fun _ => rfl
  | yes => exact skips_scalar (by decide) (by decide) (by decide) fun _ => rfl
  | no => exact skips_scalar (by decide) (by decide) (by decide) fun _ => rfl
  | number hnumber =>
    intro frames blanks rest hblanks hends
    exact skipFrom_eq_of_none (skipHead_number hblanks hnumber hends)
  | @text inner htext =>
    refine skips_scalar (by decide) (by decide) (by decide) fun rest => ?_
    show skipString (inner ++ ['"'] ++ rest) = _
    rw [List.append_assoc, List.singleton_append, skipString_form htext]
  | emptyArray hempty =>
    intro frames blanks rest hblanks _
    refine skipFrom_eq_of_none ?_
    simp only [List.cons_append, List.append_assoc, List.nil_append]
    rw [skipHead_array hblanks, closedAtOnce?_append (.inl rfl) hempty]
  | array helements ih =>
    intro frames blanks rest hblanks _
    obtain ⟨hopen, hskip⟩ := ih frames rest
    simp only [List.cons_append, List.append_assoc, List.nil_append]
    rw [skipFrom_eq_of_some (by rw [skipHead_array hblanks, hopen]), hskip]
  | emptyObject hempty =>
    intro frames blanks rest hblanks _
    refine skipFrom_eq_of_none ?_
    simp only [List.cons_append, List.append_assoc, List.nil_append]
    rw [skipHead_object hblanks, closedAtOnce?_append (.inr rfl) hempty]
  | object hmembers ih =>
    intro frames blanks rest hblanks _
    obtain ⟨hopen, inside, hkey, hskip⟩ := ih frames rest
    simp only [List.cons_append, List.append_assoc, List.nil_append]
    rw [skipFrom_eq_of_some (by rw [skipHead_object hblanks, hopen, hkey]; rfl), hskip]
  | element hbefore hvalue hafter ih =>
    intro frames rest
    simp only [List.append_assoc]
    refine ⟨not_closed_of_value hbefore hvalue _, ?_⟩
    rw [ih _ _ _ hbefore (.of_blanks hafter (.inr (.inl rfl)) rest), resume_bracket hafter]
  | elements hbefore hvalue hafter hrest ih ihrest =>
    intro frames rest
    simp only [List.append_assoc, List.cons_append]
    refine ⟨not_closed_of_value hbefore hvalue _, ?_⟩
    rw [ih _ _ _ hbefore (.of_blanks hafter (.inl rfl) _), resume_comma hafter]
    exact (ihrest frames rest).2
  | @member before name between space value after hbefore hname hbetween hspace hvalue hafter ih =>
    intro frames rest
    have hkey := skipKey_append hbefore hname hbetween
      (space ++ (value ++ (after ++ '\x7d' :: rest)))
    simp only [List.append_assoc, List.cons_append] at hkey ⊢
    refine ⟨closedAtOnce?_eq_none hbefore (by decide) _, _, hkey, ?_⟩
    rw [ih _ _ _ hspace (.of_blanks hafter (.inr (.inr rfl)) rest), resume_brace hafter]
  | @members before name between space value after others hbefore hname hbetween hspace hvalue
      hafter hrest ih ihrest =>
    intro frames rest
    obtain ⟨-, inside, hnext, hskip⟩ := ihrest frames rest
    have hkey := skipKey_append hbefore hname hbetween
      (space ++ (value ++ (after ++ ',' :: (others ++ '\x7d' :: rest))))
    simp only [List.append_assoc, List.cons_append] at hkey ⊢
    refine ⟨closedAtOnce?_eq_none hbefore (by decide) _, _, hkey, ?_⟩
    rw [ih _ _ _ hspace (.of_blanks hafter (.inl rfl) _), resume_member hafter hnext, hskip]

/-- A well-formed value is skipped. -/
theorem skipValue_append {value : List Char} (hblanks : Blanks blanks)
    (hvalue : WellFormed .value value) (hends : Ends rest) :
    skipValue (blanks ++ (value ++ rest)) = .ok rest :=
  skips hvalue [] blanks rest hblanks hends

end LocalPlay.Json
