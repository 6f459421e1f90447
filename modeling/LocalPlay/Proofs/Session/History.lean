import LocalPlay.Proofs.Splits
import LocalPlay.Session.Basic
import Mathlib.Data.List.Induction

/-!
# Reading a history

What was told of a session is a list of notices, the oldest first. Two questions are asked of it:
what the latest notice of some sort said, and what happened on the link since it was opened. Both
are answered from the end of the list, so that a later stretch changes the answer only if it says
something itself.
-/

namespace LocalPlay.Session

open Net Wire Overlay Timing

/-- The relay, or whoever sent this, confirmed a network. -/
def Notice.isConfirmation : Notice → Bool
  | handled _ (.connected _) => true
  | _ => false

/-- What the latest notice says of those that say anything. -/
def latest {α : Type} (reads : Notice → Option α) (history : List Notice) : Option α :=
  history.reverse.findSome? reads

section Latest

variable {α : Type} {reads : Notice → Option α} {history more : List Notice}

theorem latest_append :
    latest reads (history ++ more) = (latest reads more).or (latest reads history) := by
  rw [latest, List.reverse_append, List.findSome?_append]
  rfl

theorem latest_append_of_silent (hsilent : ∀ notice ∈ more, reads notice = none) :
    latest reads (history ++ more) = latest reads history := by
  have hnone : latest reads more = none :=
    List.findSome?_eq_none_iff.mpr fun notice hmem => hsilent notice (List.mem_reverse.mp hmem)
  rw [latest_append, hnone, Option.none_or]

theorem latest_concat (history : List Notice) (notice : Notice) :
    latest reads (history ++ [notice]) = (reads notice).or (latest reads history) := by
  have hsingle : latest reads [notice] = reads notice := by
    rw [latest, List.reverse_singleton, List.findSome?_singleton]
  rw [latest_append, hsingle]

theorem latest_congr {reads' : Notice → Option α}
    (hsame : ∀ notice ∈ history, reads notice = reads' notice) :
    latest reads history = latest reads' history := by
  induction history using List.reverseRecOn with
  | nil => rfl
  | append_singleton history last ih =>
    rw [latest_concat, latest_concat, ih fun _ hmem => hsame _ (List.mem_append_left _ hmem),
      hsame last (List.mem_append_right _ (List.mem_singleton_self _))]

end Latest

/-- What has happened on the link once this has happened too. -/
def Notice.onLink (past : Option (List Notice)) : Notice → Option (List Notice)
  | opened => some []
  | closed => none
  | notice => past.map (· ++ [notice])

/-- What happened on the link since it was opened; nothing while it is closed. -/
def onLink (history : List Notice) : Option (List Notice) :=
  history.foldl Notice.onLink none

/-- The notice is of the opening or the closing of the link. -/
def Notice.isBoundary : Notice → Bool
  | opened | closed => true
  | _ => false

theorem onLink_concat (history : List Notice) (notice : Notice) :
    onLink (history ++ [notice]) = notice.onLink (onLink history) :=
  List.foldl_append ..

theorem Notice.onLink_eq_map {notice : Notice} (hnotice : notice.isBoundary = false)
    (past : Option (List Notice)) : notice.onLink past = past.map (· ++ [notice]) := by
  cases notice with
  | opened => exact nomatch hnotice
  | closed => exact nomatch hnotice
  | _ => rfl

theorem onLink_concat_of_some {history past : List Notice} (hpast : onLink history = some past)
    {notice : Notice} (hnotice : notice.isBoundary = false) :
    onLink (history ++ [notice]) = some (past ++ [notice]) := by
  rw [onLink_concat, hpast, notice.onLink_eq_map hnotice]
  rfl

theorem onLink_append {history more : List Notice}
    (hmore : ∀ notice ∈ more, notice.isBoundary = false) :
    onLink (history ++ more) = (onLink history).map (· ++ more) := by
  induction more using List.reverseRecOn with
  | nil =>
    rw [List.append_nil]
    cases onLink history with
    | none => rfl
    | some past => rw [Option.map_some, List.append_nil]
  | append_singleton more notice ih =>
    have hnotice := hmore notice (List.mem_append_right _ (List.mem_singleton_self _))
    have hbefore := ih fun _ hmem => hmore _ (List.mem_append_left _ hmem)
    rw [← List.append_assoc, onLink_concat, hbefore, notice.onLink_eq_map hnotice, Option.map_map]
    congr 1
    funext past
    exact List.append_assoc ..

theorem mem_of_mem_onLink {history past : List Notice} (hpast : onLink history = some past)
    {notice : Notice} (hmem : notice ∈ past) : notice ∈ history := by
  induction history using List.reverseRecOn generalizing past with
  | nil => exact nomatch hpast
  | append_singleton history last ih =>
    rw [onLink_concat] at hpast
    cases hlast : last.isBoundary with
    | true =>
      cases last with
      | opened =>
        obtain rfl := Option.some.inj hpast
        exact nomatch hmem
      | closed => exact nomatch hpast
      | _ => exact nomatch hlast
    | false =>
      rw [last.onLink_eq_map hlast] at hpast
      obtain ⟨before, hbefore, rfl⟩ := Option.map_eq_some_iff.mp hpast
      rcases List.mem_append.mp hmem with hmem | hmem
      · exact List.mem_append_left _ (ih hbefore hmem)
      · exact List.mem_append_right _ hmem

end LocalPlay.Session
