import LocalPlay.Proofs.Json.Values
import Mathlib.Data.List.Nodup

/-!
# Reading records

An object is read as the record it is written for, unless one of its values is refused:
`exists_takes`. What reading does with one member is `Step`, and `Taking` goes on from member to
member, so that the text of an object has to be looked at once, and the values of the record can be
followed along the list of its members. A member sets its own attribute and no other one, so at the
end those that were there are as written, and the others still have their defaults. Reading stops at
the first value that is refused.
-/

namespace LocalPlay.Json

variable {σ : Type}

/-- An attribute with its reader. Some of its values may be refused. -/
structure Slot (σ : Type) extends Attribute σ where
  set : Value → σ → σ
  reader : Reader Value
  refused? : Value → Option Flaw
  takes : ∀ {value : Value} {cs : List Char}, Writes value cs →
    reader.Takes cs ((refused? value).elim (.ok value) .error)

/-- A slot that refuses nothing. -/
def Slot.accepting (a : Attribute σ) (set : a.Value → σ → σ) (reader : Reader a.Value)
    (htakes : ∀ {value : a.Value} {cs : List Char}, a.Writes value cs →
      reader.Takes cs (.ok value)) : Slot σ where
  toAttribute := a
  set := set
  reader := reader
  refused? := fun _ => none
  takes := htakes

def Slot.field (slot : Slot σ) : Field σ :=
  .of slot.name slot.reader slot.set

namespace Record

/-- What setting one of the slots does to the others. -/
structure Lawful (slots : List (Slot σ)) (default : σ) : Prop where
  get_set : ∀ slot ∈ slots, ∀ other ∈ slots, ∀ record value,
    slot.get (other.set (other.get record) value) =
      if slot.name = other.name then slot.get record else slot.get value
  ext : ∀ record other, (∀ slot ∈ slots, slot.get record = slot.get other) → record = other
  names : (slots.map (·.name)).Nodup
  accepts : ∀ slot ∈ slots, slot.refused? (slot.get default) = none

variable {fields : List (Field σ)} {slots : List (Slot σ)} {progress next : Progress σ}
  {default record : σ} {m : Member} {ms : List Member} {cs : List Char} {c : Char}

/-! ### From the text to its members -/

/-- One member is read with this result. -/
inductive Step (fields : List (Field σ)) (progress : Progress σ) :
    Member → Except Flaw (Progress σ) → Prop
  | skips {name : String} {value : List Char}
      (hfind : fields.find? (·.name == name) = none) (hvalue : WellFormed .value value) :
    Step fields progress (name, value) (.ok progress)
  | takes {name : String} {value : List Char} {field : Field σ} {result : Except Flaw (σ → σ)}
      (hfind : fields.find? (·.name == name) = some field) (hnew : name ∉ progress.seen)
      (htakes : field.reader.Takes value result) :
    Step fields progress (name, value)
      (result.map fun set => ⟨set progress.value, name :: progress.seen⟩)

/-- The members are read with this result. -/
inductive Taking (fields : List (Field σ)) :
    Progress σ → List Member → Except Flaw σ → Prop
  | done {progress : Progress σ} : Taking fields progress [] (.ok progress.value)
  | next {progress next : Progress σ} {m : Member} {ms : List Member} {result : Except Flaw σ}
      (hstep : Step fields progress m (.ok next)) (hrest : Taking fields next ms result) :
    Taking fields progress (m :: ms) result
  | stops {progress : Progress σ} {m : Member} {ms : List Member} {flaw : Flaw}
      (hstep : Step fields progress m (.error flaw)) :
    Taking fields progress (m :: ms) (.error flaw)

/-- A member is read up to the blanks after it. -/
theorem member_append {result : Except Flaw (Progress σ)} (hstep : Step fields progress m result)
    (hm : MemberText m cs) (hc : c = ',' ∨ c = '\x7d') (rest : List Char) :
    ∃ after, Blanks after ∧
      member fields progress (cs ++ c :: rest) = result.map (·, after ++ c :: rest) := by
  obtain @⟨name, before, quoted, between, space, value, after, hbefore, hname, hbetween, hspace,
    hafter⟩ := hm
  have hends : Ends (after ++ c :: rest) := .of_blanks hafter (hc.imp id .inr) rest
  obtain ⟨inner, rfl, hstring⟩ :=
    stringFrom_quoted hname (between ++ ':' :: (space ++ (value ++ (after ++ c :: rest))))
  refine ⟨after, hafter, ?_⟩
  simp only [List.append_assoc, List.cons_append]
  rw [member, keyQuote_append hbefore]
  simp only [bind, Except.bind]
  rw [hstring]
  cases hstep with
  | skips hfind hvalue =>
    simp only [hfind, colon_append hbetween, skipValue_append hspace hvalue hends, Except.map]
  | @takes _ _ field result hfind hnew htakes =>
    simp only [hfind, if_neg hnew, colon_append hbetween, htakes space _ hspace hends]
    cases result with
    | error flaw => rfl
    | ok set => rfl

theorem members_eq_of_error {flaw : Flaw} (hmember : member fields progress cs = .error flaw) :
    members fields progress cs = .error flaw := by
  rw [members]
  split
  · next hflaw =>
    rw [hmember] at hflaw
    cases hflaw
    rfl
  · next hok => rw [hmember] at hok; cases hok

theorem members_eq_of_last {middle rest : List Char}
    (hmember : member fields progress cs = .ok (next, middle))
    (hlast : another '\x7d' middle = .ok (false, rest)) :
    members fields progress cs = .ok (next.value, rest) := by
  rw [members]
  split
  · next hflaw => rw [hmember] at hflaw; cases hflaw
  · next hok =>
    rw [hmember] at hok
    cases hok
    split
    · next hflaw => rw [hlast] at hflaw; cases hflaw
    · next hover =>
      rw [hlast] at hover
      cases hover
      rfl
    · next hmore => rw [hlast] at hmore; cases hmore

theorem members_eq_of_more {middle rest : List Char}
    (hmember : member fields progress cs = .ok (next, middle))
    (hmore : another '\x7d' middle = .ok (true, rest)) :
    members fields progress cs = members fields next rest := by
  rw [members]
  split
  · next hflaw => rw [hmember] at hflaw; cases hflaw
  · next hok =>
    rw [hmember] at hok
    cases hok
    split
    · next hflaw => rw [hmore] at hflaw; cases hflaw
    · next hover => rw [hmore] at hover; cases hover
    · next hmore' =>
      rw [hmore] at hmore'
      cases hmore'
      rfl

theorem members_append {result : Except Flaw σ} (htaking : Taking fields progress ms result)
    (hmembers : MembersText ms cs) (rest : List Char) :
    members fields progress (cs ++ '\x7d' :: rest) = result.map (·, rest) := by
  induction hmembers generalizing progress with
  | single hm =>
    cases htaking with
    | stops hstep =>
      obtain ⟨_, _, hmember⟩ := member_append hstep hm (.inr rfl) rest
      exact members_eq_of_error hmember
    | next hstep hrest =>
      cases hrest
      obtain ⟨after, hafter, hmember⟩ := member_append hstep hm (.inr rfl) rest
      exact members_eq_of_last hmember (another_closing (.inr rfl) hafter rest)
  | @cons m ms cs others hm hothers ih =>
    rw [List.append_assoc, List.cons_append]
    cases htaking with
    | stops hstep =>
      obtain ⟨_, _, hmember⟩ := member_append hstep hm (.inl rfl) (others ++ '\x7d' :: rest)
      exact members_eq_of_error hmember
    | next hstep hrest =>
      obtain ⟨after, hafter, hmember⟩ :=
        member_append hstep hm (.inl rfl) (others ++ '\x7d' :: rest)
      rw [members_eq_of_more hmember (another_comma hafter _ _)]
      exact ih hrest

/-- The object is not empty if it has members. -/
theorem not_closed_of_members (hmembers : MembersText ms cs) (rest : List Char) :
    closedAtOnce? '\x7d' (cs ++ rest) = none := by
  have hfirst {m : Member} {cs : List Char} (hm : MemberText m cs) (rest : List Char) :
      closedAtOnce? '\x7d' (cs ++ rest) = none := by
    obtain ⟨hbefore, ⟨inner, -, rfl⟩, -, -, -⟩ := hm
    simp only [List.append_assoc, List.cons_append]
    exact closedAtOnce?_eq_none hbefore (by decide) _
  cases hmembers with
  | single hm => exact hfirst hm rest
  | cons hm hothers =>
    rw [List.append_assoc]
    exact hfirst hm _

theorem takes_of_taking {result : Except Flaw σ} (hobject : ObjectText ms cs)
    (htaking : Taking fields ⟨default, []⟩ ms result) :
    (Record.reader fields default).Takes cs result := by
  intro blanks rest hblanks _
  have htoken (inside : List Char) :
      token (blanks ++ '\x7b' :: inside) = .ok (.openObject, inside) := by
    rw [token, skipBlank_append hblanks, skipBlank_cons (by decide)]
    rfl
  rw [Record.reader]
  cases hobject with
  | empty hempty =>
    cases htaking
    simp only [List.cons_append, List.append_assoc, List.nil_append, htoken]
    rw [closedAtOnce?_append (.inr rfl) hempty]
    rfl
  | members hmembers =>
    simp only [List.cons_append, List.append_assoc, List.nil_append, htoken]
    rw [not_closed_of_members hmembers]
    exact members_append htaking hmembers rest

/-! ### From the members to the record -/

/-- What reading members of the record comes to, if `value` was there before. -/
def Outcome (slots : List (Slot σ)) (record value : σ) (ms : List Member) :
    Except Flaw σ → Prop
  | .ok final => ∀ slot ∈ slots,
      slot.get final =
        (if slot.name ∈ ms.map Prod.fst then slot.get record else slot.get value) ∧
      (slot.name ∈ ms.map Prod.fst → slot.refused? (slot.get record) = none)
  | .error flaw => ∃ slot ∈ slots, slot.refused? (slot.get record) = some flaw

/-- A member the record does not have changes nothing. -/
theorem outcome_of_skips {value : σ} {result : Except Flaw σ}
    (hother : ∀ slot ∈ slots, m.1 ≠ slot.name) (hrest : Outcome slots record value ms result) :
    Outcome slots record value (m :: ms) result := by
  cases result with
  | error flaw => exact hrest
  | ok final =>
    intro slot hslot
    have hne : slot.name ≠ m.1 := (hother slot hslot).symm
    simp only [List.map_cons, List.mem_cons, hne, false_or]
    exact hrest slot hslot

/-- A member sets the attribute that has its name. -/
theorem outcome_of_takes (hlawful : Lawful slots default) {value : σ} {result : Except Flaw σ}
    {taken : Slot σ} (htaken : taken ∈ slots) (hname : taken.name = m.1)
    (haccepted : taken.refused? (taken.get record) = none)
    (hrest : Outcome slots record (taken.set (taken.get record) value) ms result) :
    Outcome slots record value (m :: ms) result := by
  cases result with
  | error flaw => exact hrest
  | ok final =>
    intro slot hslot
    obtain ⟨hget, hfits⟩ := hrest slot hslot
    rw [hlawful.get_set slot hslot taken htaken, hname] at hget
    simp only [List.map_cons, List.mem_cons]
    by_cases hm : slot.name = m.1
    · obtain rfl : slot = taken :=
        List.inj_on_of_nodup_map hlawful.names hslot htaken (hm.trans hname.symm)
      simp only [hm, if_true, ite_self] at hget
      simp only [hm, true_or, if_true]
      exact ⟨hget, fun _ => haccepted⟩
    · simp only [hm, if_false] at hget
      simp only [hm, false_or]
      exact ⟨hget, hfits⟩

theorem find?_field (name : String) : (slots.map Slot.field).find? (·.name == name) =
    (slots.find? (·.name == name)).map Slot.field :=
  List.find?_map

/-- A member that is not the record's own is skipped. -/
theorem step_of_other (hunknown : slots.find? (·.name == m.1) = none)
    (hvalue : WellFormed .value m.2) : Step (slots.map Slot.field) progress m (.ok progress) := by
  refine .skips ?_ hvalue
  rw [find?_field, hunknown]
  rfl

/-- The value of a member is taken for what the record has there, or refused. -/
theorem step_of_own {slot : Slot σ} (hfind : slots.find? (·.name == m.1) = some slot)
    (hwrites : slot.Writes (slot.get record) m.2) (hnew : m.1 ∉ progress.seen) :
    Step (slots.map Slot.field) progress m
      ((slot.refused? (slot.get record)).elim
        (.ok ⟨slot.set (slot.get record) progress.value, m.1 :: progress.seen⟩) .error) := by
  have hfield : (slots.map Slot.field).find? (·.name == m.1) = some slot.field := by
    rw [find?_field, hfind]
    rfl
  have htakes := Reader.takes_map slot.set (slot.takes hwrites)
  cases hrefused : slot.refused? (slot.get record) with
  | none =>
    rw [hrefused] at htakes
    exact .takes hfield hnew htakes
  | some flaw =>
    rw [hrefused] at htakes
    exact .takes hfield hnew htakes

/-- The members of the record are read one after the other. -/
theorem exists_taking (hlawful : Lawful slots default)
    (honce : ms.Pairwise fun first second =>
      ∀ slot ∈ slots, first.1 = slot.name → second.1 ≠ slot.name)
    (hwritten : ∀ slot ∈ slots, ∀ m ∈ ms, m.1 = slot.name → slot.Writes (slot.get record) m.2)
    (hother : ∀ m ∈ ms, (∀ slot ∈ slots, m.1 ≠ slot.name) → WellFormed .value m.2)
    (hnew : ∀ slot ∈ slots, ∀ m ∈ ms, m.1 = slot.name → m.1 ∉ progress.seen) :
    ∃ result, Taking (slots.map Slot.field) progress ms result ∧
      Outcome slots record progress.value ms result := by
  induction ms generalizing progress with
  | nil => exact ⟨.ok progress.value, .done, fun slot _ => by simp⟩
  | cons m ms ih =>
    obtain ⟨hfirst, honce⟩ := List.pairwise_cons.mp honce
    simp only [List.forall_mem_cons] at hwritten hother hnew
    have hwritten' := fun slot hslot => (hwritten slot hslot).2
    have hnew' := fun slot hslot => (hnew slot hslot).2
    cases hfind : slots.find? (·.name == m.1) with
    | none =>
      have hunknown : ∀ slot ∈ slots, m.1 ≠ slot.name := by
        intro slot hslot heq
        have hne := List.find?_eq_none.mp hfind slot hslot
        simp [heq] at hne
      obtain ⟨result, htaking, houtcome⟩ := ih honce hwritten' hother.2 hnew'
      have hstep : Step (slots.map Slot.field) progress m (.ok progress) :=
        step_of_other hfind (hother.1 hunknown)
      exact ⟨result, .next hstep htaking, outcome_of_skips hunknown houtcome⟩
    | some taken =>
      have htaken := List.mem_of_find?_eq_some hfind
      have hname : taken.name = m.1 := by simpa using List.find?_some hfind
      have hstep := step_of_own hfind ((hwritten taken htaken).1 hname.symm)
        ((hnew taken htaken).1 hname.symm)
      cases hrefused : taken.refused? (taken.get record) with
      | some flaw =>
        rw [hrefused] at hstep
        exact ⟨.error flaw, .stops hstep, taken, htaken, hrefused⟩
      | none =>
        rw [hrefused] at hstep
        have hseen : ∀ slot ∈ slots, ∀ m' ∈ ms, m'.1 = slot.name →
            m'.1 ∉ m.1 :: progress.seen := by
          intro slot hslot m' hm' heq hseen
          rcases List.mem_cons.mp hseen with hsame | hseen
          · exact hfirst m' hm' slot hslot (hsame ▸ heq) heq
          · exact hnew' slot hslot m' hm' heq hseen
        obtain ⟨result, htaking, houtcome⟩ :=
          @ih ⟨taken.set (taken.get record) progress.value, m.1 :: progress.seen⟩ honce hwritten'
            hother.2 hseen
        exact ⟨result, .next hstep htaking,
          outcome_of_takes hlawful htaken hname hrefused houtcome⟩

/-- An object is read as the record it is, or refused because of one of its values. -/
theorem exists_takes (hlawful : Lawful slots default)
    (hrenders : Renders (slots.map (·.toAttribute)) default record cs) :
    ∃ result, (Record.reader (slots.map Slot.field) default).Takes cs result ∧
      ((result = .ok record ∧ ∀ slot ∈ slots, slot.refused? (slot.get record) = none) ∨
        ∃ flaw, result = .error flaw ∧ ∃ slot ∈ slots,
          slot.refused? (slot.get record) = some flaw) := by
  obtain ⟨ms, hobject, honce, hwritten, homitted, hother⟩ := hrenders
  simp only [List.forall_mem_map] at honce hwritten homitted hother
  have hnew : ∀ slot ∈ slots, ∀ m ∈ ms, m.1 = slot.name →
      m.1 ∉ (⟨default, []⟩ : Progress σ).seen := fun _ _ _ _ _ => List.not_mem_nil
  obtain ⟨result, htaking, houtcome⟩ := exists_taking hlawful honce hwritten hother hnew
  refine ⟨result, takes_of_taking hobject htaking, ?_⟩
  cases result with
  | error flaw => exact .inr ⟨flaw, rfl, houtcome⟩
  | ok final =>
    have hget : ∀ slot ∈ slots, slot.get final = slot.get record ∧
        slot.refused? (slot.get record) = none := by
      intro slot hslot
      obtain ⟨hfinal, haccepted⟩ := houtcome slot hslot
      by_cases hthere : slot.name ∈ ms.map Prod.fst
      · rw [if_pos hthere] at hfinal
        exact ⟨hfinal, haccepted hthere⟩
      · have hsame : slot.get record = slot.get default := by
          refine homitted slot hslot fun m hm heq => hthere ?_
          exact heq ▸ List.mem_map_of_mem hm
        rw [if_neg hthere] at hfinal
        rw [hsame]
        exact ⟨hfinal, hlawful.accepts slot hslot⟩
    obtain rfl := hlawful.ext final record fun slot hslot => (hget slot hslot).1
    exact .inl ⟨rfl, fun slot hslot => (hget slot hslot).2⟩

/-- An object is read as the record it is if nothing in it is refused. -/
theorem takes_of_accepted (hlawful : Lawful slots default)
    (haccepted : ∀ slot ∈ slots, slot.refused? (slot.get record) = none)
    (hrenders : Renders (slots.map (·.toAttribute)) default record cs) :
    (Record.reader (slots.map Slot.field) default).Takes cs (.ok record) := by
  obtain ⟨result, htakes, ⟨rfl, -⟩ | ⟨flaw, -, slot, hslot, hrefused⟩⟩ :=
    exists_takes hlawful hrenders
  · exact htakes
  · rw [haccepted slot hslot] at hrefused
    cases hrefused

end Record

end LocalPlay.Json
