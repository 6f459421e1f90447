/-!
# Where an entry stands

Runs and histories are lists that grow at the end. What was said of an entry, with what came before
it and what came after, is carried over to a longer list by asking whether the entry is in the old
part or in the new one.
-/

namespace LocalPlay

/-- An entry of two lists stands in the first or in the second. -/
theorem split_append {α : Type} {xs ys before after : List α} {x : α}
    (hsplit : xs ++ ys = before ++ x :: after) :
    (∃ rest, xs = before ++ x :: rest ∧ after = rest ++ ys) ∨
      ∃ between, before = xs ++ between ∧ ys = between ++ x :: after := by
  rcases List.append_eq_append_iff.mp hsplit with ⟨between, hbefore, hys⟩ | ⟨between, hxs, htail⟩
  · exact .inr ⟨between, hbefore, hys⟩
  · cases between with
    | nil =>
      rw [List.append_nil] at hxs
      exact .inr ⟨[], by rw [hxs, List.append_nil], htail.symm⟩
    | cons first between =>
      obtain ⟨rfl, hafter⟩ := List.cons_eq_cons.mp htail
      exact .inl ⟨between, hxs, hafter⟩

theorem split_singleton {α : Type} {before after : List α} {x y : α}
    (hsplit : [x] = before ++ y :: after) : before = [] ∧ x = y := by
  rcases List.append_eq_singleton_iff.mp hsplit.symm with ⟨hnil, hrest⟩ | ⟨-, hrest⟩
  · exact ⟨hnil, (List.cons_eq_cons.mp hrest).1.symm⟩
  · exact nomatch hrest

/-- An entry of a list with a new last one is an old entry or the last one. -/
theorem split_concat {α : Type} {xs before after : List α} {x y : α}
    (hsplit : xs ++ [x] = before ++ y :: after) :
    (∃ rest, xs = before ++ y :: rest) ∨ before = xs ∧ y = x := by
  rcases split_append hsplit with ⟨rest, hxs, -⟩ | ⟨between, hbefore, hlast⟩
  · exact .inl ⟨rest, hxs⟩
  · obtain ⟨rfl, rfl⟩ := split_singleton hlast
    exact .inr ⟨hbefore.trans (List.append_nil _), rfl⟩

/-- What holds of every entry and what stands before it holds of those there are and of a new last
one. -/
theorem forall_split_concat {α : Type} {P : List α → α → Prop} {xs : List α} {x : α} :
    (∀ before y after, xs ++ [x] = before ++ y :: after → P before y) ↔
      (∀ before y after, xs = before ++ y :: after → P before y) ∧ P xs x := by
  constructor
  · intro h
    refine ⟨fun before y after hxs => ?_, h xs x [] rfl⟩
    apply h before y (after ++ [x])
    simp [hxs]
  · rintro ⟨hxs, hx⟩ before y after hsplit
    rcases split_concat hsplit with ⟨rest, hold⟩ | ⟨rfl, rfl⟩
    · exact hxs before y rest hold
    · exact hx

/-- An entry that is looked up by a key has this key. -/
theorem key_of_find? {α κ : Type} [BEq κ] [LawfulBEq κ] {key : α → κ} {k : κ} {xs : List α} {x : α}
    (hfind : xs.find? (key · == k) = some x) : key x = k := by
  have hkey := List.find?_some hfind
  exact beq_iff_eq.mp hkey

/-- The entry that is found is the one that is erased. -/
theorem eraseP_of_find? {α : Type} [BEq α] [LawfulBEq α] {p : α → Bool} {xs : List α} {x : α}
    (hfind : xs.find? p = some x) : xs.eraseP p = xs.erase x := by
  obtain ⟨hx, before, after, rfl, hbefore⟩ := List.find?_eq_some_iff_append.mp hfind
  have hnone : ∀ y ∈ before, ¬ p y = true := by simpa using hbefore
  have hfirst : x ∉ before := fun hmem => hnone x hmem hx
  rw [List.eraseP_append_right _ hnone, List.eraseP_cons_of_pos hx,
    List.erase_append_right _ hfirst, List.erase_cons_head]

theorem filterMap_concat {α β : Type} (f : α → Option β) (xs : List α) (x : α) :
    (xs ++ [x]).filterMap f = xs.filterMap f ++ (f x).toList := by
  rw [List.filterMap_append]
  cases hx : f x with
  | none => rw [List.filterMap_cons_none hx]; rfl
  | some y => rw [List.filterMap_cons_some hx]; rfl

theorem filterMap_eq_nil_of_isPrefix {α β : Type} {f : α → Option β} {xs ys : List α}
    (h : xs <+: ys) (hnone : ys.filterMap f = []) : xs.filterMap f = [] := by
  rw [← List.prefix_nil, ← hnone]
  exact h.filterMap f

end LocalPlay
