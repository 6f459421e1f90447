import LocalPlay.Proofs.Json.Grammar

/-!
# Everything can be written

The grammar leaves nothing out: every text can be spelled, and every list of members makes an object.
So a record can be written if its attributes can, under different names.
-/

namespace LocalPlay.Json

theorem exists_unitDigits {unit : Nat} (hunit : unit < 0x10000) : ∃ cs, UnitDigits unit cs := by
  have hvalue : ∀ digit < 16, Text.hexValue? digit.digitChar = some digit := by decide
  refine ⟨_, _, _, _, _, unit / 4096, unit / 256 % 16, unit / 16 % 16, unit % 16, rfl,
    hvalue _ ?_, hvalue _ ?_, hvalue _ ?_, hvalue _ ?_, ?_⟩
  all_goals omega

/-- What is not plain can be written by its number. -/
theorem exists_spelling (c : Char) : ∃ cs, Spelling c cs := by
  by_cases hplain : isPlain c = true
  · exact ⟨[c], .plain hplain⟩
  · have hsmall : c.toNat < 0x10000 := by
      by_cases hquote : c = '"'
      · subst hquote
        decide
      · by_cases hbackslash : c = '\\'
        · subst hbackslash
          decide
        · simp [isPlain, hquote, hbackslash] at hplain
          omega
    obtain ⟨digits, hdigits⟩ := exists_unitDigits hsmall
    exact ⟨_, .unit hdigits⟩

theorem exists_spelled (text : List Char) : ∃ cs, Spelled text cs := by
  induction text with
  | nil => exact ⟨[], .nil⟩
  | cons c text ih =>
    obtain ⟨spelling, hspelling⟩ := exists_spelling c
    obtain ⟨rest, hrest⟩ := ih
    exact ⟨spelling ++ rest, .cons hspelling hrest⟩

theorem exists_quoted (text : String) : ∃ cs, Quoted text cs := by
  obtain ⟨inner, hspelled⟩ := exists_spelled text.toList
  exact ⟨_, inner, hspelled, rfl⟩

theorem exists_memberText (m : Member) : ∃ cs, MemberText m cs := by
  obtain ⟨name, value⟩ := m
  obtain ⟨quoted, hquoted⟩ := exists_quoted name
  have hnone : Blanks [] := List.forall_mem_nil _
  exact ⟨_, .intro hnone hquoted hnone hnone hnone⟩

theorem exists_membersText (m : Member) (ms : List Member) : ∃ cs, MembersText (m :: ms) cs := by
  induction ms generalizing m with
  | nil =>
    obtain ⟨cs, hm⟩ := exists_memberText m
    exact ⟨cs, .single hm⟩
  | cons next ms ih =>
    obtain ⟨cs, hm⟩ := exists_memberText m
    obtain ⟨rest, hrest⟩ := ih next
    exact ⟨_, .cons hm hrest⟩

theorem exists_objectText (ms : List Member) : ∃ cs, ObjectText ms cs := by
  cases ms with
  | nil => exact ⟨_, .empty (List.forall_mem_nil _)⟩
  | cons m ms =>
    obtain ⟨cs, hmembers⟩ := exists_membersText m ms
    exact ⟨_, .members hmembers⟩

variable {σ : Type} {attributes : List (Attribute σ)} {record : σ}

/-- Each attribute with what is written for it. -/
theorem exists_members (hnames : (attributes.map (·.name)).Nodup)
    (hwrites : ∀ a ∈ attributes, ∃ cs, a.Writes (a.get record) cs) :
    ∃ ms : List Member, ms.map Prod.fst = attributes.map (·.name) ∧
      ∀ a ∈ attributes, ∀ m ∈ ms, m.1 = a.name → a.Writes (a.get record) m.2 := by
  induction attributes with
  | nil => exact ⟨[], rfl, by simp⟩
  | cons a attributes ih =>
    obtain ⟨hfresh, hnames⟩ : a.name ∉ attributes.map (·.name) ∧
      (attributes.map (·.name)).Nodup := List.nodup_cons.mp hnames
    obtain ⟨⟨cs, ha⟩, hwrites⟩ := List.forall_mem_cons.mp hwrites
    obtain ⟨ms, hsame, hothers⟩ := ih hnames hwrites
    refine ⟨(a.name, cs) :: ms, by rw [List.map_cons, List.map_cons, hsame], ?_⟩
    rw [List.forall_mem_cons]
    constructor
    · rw [List.forall_mem_cons]
      refine ⟨fun _ => ha, fun m hm heq => absurd ?_ hfresh⟩
      rw [← heq, ← hsame]
      exact List.mem_map_of_mem hm
    · intro b hb
      rw [List.forall_mem_cons]
      refine ⟨fun heq => absurd ?_ hfresh, hothers b hb⟩
      exact List.mem_map.mpr ⟨b, hb, heq.symm⟩

theorem exists_renders (default : σ) (hnames : (attributes.map (·.name)).Nodup)
    (hwrites : ∀ a ∈ attributes, ∃ cs, a.Writes (a.get record) cs) :
    ∃ cs, Renders attributes default record cs := by
  obtain ⟨ms, hsame, hwritten⟩ := exists_members hnames hwrites
  obtain ⟨cs, hobject⟩ := exists_objectText ms
  rw [← hsame] at hnames
  have hpairs : ms.Pairwise fun first second => first.1 ≠ second.1 := List.pairwise_map.mp hnames
  refine ⟨cs, ms, hobject, ?once, hwritten, ?omitted, ?other⟩
  case once =>
    refine hpairs.imp fun {first second} hne a _ hfirst hsecond => hne ?_
    rw [hfirst, hsecond]
  case omitted =>
    intro a ha hnone
    have hname : a.name ∈ ms.map Prod.fst := by
      rw [hsame]
      exact List.mem_map.mpr ⟨a, ha, rfl⟩
    obtain ⟨m, hm, heq⟩ := List.mem_map.mp hname
    exact absurd heq (hnone m hm)
  case other =>
    intro m hm hnone
    have hname : m.1 ∈ attributes.map (·.name) := by
      rw [← hsame]
      exact List.mem_map_of_mem hm
    obtain ⟨a, ha, heq⟩ := List.mem_map.mp hname
    exact absurd heq.symm (hnone a ha)

end LocalPlay.Json
