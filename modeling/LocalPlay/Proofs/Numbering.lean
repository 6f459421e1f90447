import LocalPlay.Proofs.Splits
import Mathlib.Data.List.Nodup

/-!
# Numbers given out in order

Calls and seats are numbered as they come, by a count of those before. Whatever is left of them at
some time has numbers below the count, each one its own, so that the next can have the count.
-/

namespace LocalPlay

/-- The numbers are below the count, and no two are the same. -/
structure Numbered (ids : List Nat) (count : Nat) : Prop where
  below : ∀ id ∈ ids, id < count
  nodup : ids.Nodup

namespace Numbered

variable {ids : List Nat} {count : Nat}

theorem nil (count : Nat) : Numbered [] count :=
  ⟨fun _ => nofun, .nil⟩

theorem mono (h : Numbered ids count) {more : Nat} (hmore : count ≤ more) : Numbered ids more :=
  ⟨fun id hid => Nat.lt_of_lt_of_le (h.below id hid) hmore, h.nodup⟩

theorem sublist (h : Numbered ids count) {rest : List Nat} (hrest : rest.Sublist ids) :
    Numbered rest count :=
  ⟨fun id hid => h.below id (hrest.subset hid), h.nodup.sublist hrest⟩

theorem concat (h : Numbered ids count) {id : Nat} (hbelow : id < count) (hnew : id ∉ ids) :
    Numbered (ids ++ [id]) count where
  below other hother := by
    rcases List.mem_append.mp hother with hother | hother
    · exact h.below other hother
    · rw [List.mem_singleton.mp hother]
      exact hbelow
  nodup := by
    rw [← List.concat_eq_append]
    exact h.nodup.concat hnew

/-- The next number is the count. -/
theorem issue (h : Numbered ids count) : Numbered (ids ++ [count]) (count + 1) :=
  (h.mono (Nat.le_succ _)).concat (Nat.lt_succ_self _) fun hmem => Nat.lt_irrefl _ (h.below _ hmem)

/-- What is numbered is told apart by its number. -/
theorem eq_of_id {α : Type} {id : α → Nat} {xs : List α} (h : Numbered (xs.map id) count) {x y : α}
    (hx : x ∈ xs) (hy : y ∈ xs) (hid : id x = id y) : x = y :=
  List.inj_on_of_nodup_map h.nodup hx hy hid

/-- What is looked up by its number is found. -/
theorem find?_eq {α : Type} {id : α → Nat} {xs : List α} (h : Numbered (xs.map id) count) {x : α}
    (hx : x ∈ xs) : xs.find? (id · == id x) = some x := by
  cases hfind : xs.find? (id · == id x) with
  | none => exact absurd (beq_self_eq_true (id x)) (List.find?_eq_none.mp hfind x hx)
  | some y =>
    have hid : id y = id x := key_of_find? hfind
    rw [h.eq_of_id (List.mem_of_find?_eq_some hfind) hx hid]

end Numbered

end LocalPlay
