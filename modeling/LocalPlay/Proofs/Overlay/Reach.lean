import LocalPlay.Proofs.Overlay.Applicants

/-!
# Applications and the tokens that are for them

A host may have a token that is for an application, and the application may still fail: someone else
has taken the token, or it was dropped, or it came when the application had been turned away. There
is no fourth way. `Provided` lists how an application and a token can stand to each other, and
`provided_ofMoves` says that any two stand so after any moves. That an application does not go on
waiting beside the token is not said here; it is up to whoever runs the host.
-/

namespace LocalPlay.Overlay

open Net Wire

open Host (Move)

/-! ### Entries of a ledger over time -/

namespace Entry

/-- Nothing becomes of an entry but that a pending one meets its fate. -/
def Becomes (entry later : Entry) : Prop :=
  later.token = entry.token ∧ (entry.fate ≠ .pending → later = entry)

theorem Becomes.refl (entry : Entry) : Becomes entry entry :=
  ⟨rfl, fun _ => rfl⟩

theorem Becomes.trans {entry later last : Entry} (h : Becomes entry later)
    (hlast : Becomes later last) : Becomes entry last := by
  refine ⟨hlast.1.trans h.1, fun hfate => ?_⟩
  obtain rfl := h.2 hfate
  exact hlast.2 hfate

theorem becomes_drop (gone : ProxyToken → Bool) (fate : Fate) (entry : Entry) :
    Becomes entry (entry.drop gone fate) := by
  refine ⟨entry.token_drop gone fate, fun hfate => ?_⟩
  rw [drop, if_neg (by simp [hfate])]

/-- Someone else has the token, or it was dropped. -/
def IsGone (applicant : Nat) (entry : Entry) : Prop :=
  match entry.fate with
  | .pending => False
  | .consumed other => other ≠ applicant
  | .withdrawn _ => True
  | .discarded => True

theorem IsGone.becomes {applicant : Nat} {entry later : Entry} (h : entry.IsGone applicant)
    (hlater : Becomes entry later) : later.IsGone applicant := by
  have hfate : entry.fate ≠ .pending := by
    intro hpending
    simp [IsGone, hpending] at h
  rw [hlater.2 hfate]
  exact h

end Entry

namespace Ledger

theorem getElem?_consume {applicant : Nat} {token : ProxyToken} {ledger : Ledger} {index : Nat}
    {later : Entry} (hlater : (consume applicant token ledger)[index]? = some later) :
    ∃ entry, ledger[index]? = some entry ∧ entry.Becomes later := by
  induction ledger generalizing index with
  | nil => simp [consume] at hlater
  | cons entry rest ih =>
    rw [consume] at hlater
    split at hlater
    · rename_i hpending
      cases index with
      | zero =>
        obtain rfl := Option.some.inj hlater
        refine ⟨entry, rfl, rfl, fun hfate => ?_⟩
        simp [Entry.pending?, hfate] at hpending
      | succ index => exact ⟨later, hlater, .refl later⟩
    · cases index with
      | zero =>
        obtain rfl := Option.some.inj hlater
        exact ⟨entry, rfl, .refl entry⟩
      | succ index => exact ih hlater

theorem getElem?_drop {gone : ProxyToken → Bool} {fate : Fate} {ledger : Ledger} {index : Nat}
    {later : Entry} (hlater : (ledger.map (.drop gone fate))[index]? = some later) :
    ∃ entry, ledger[index]? = some entry ∧ entry.Becomes later := by
  rw [List.getElem?_map] at hlater
  obtain ⟨entry, hentry, rfl⟩ := Option.map_eq_some_iff.mp hlater
  exact ⟨entry, hentry, entry.becomes_drop gone fate⟩

theorem getElem?_act {move : Move} {ledger : Ledger} {index : Nat} {later : Entry}
    (hlater : (ledger.act move)[index]? = some later) :
    (∃ entry, ledger[index]? = some entry ∧ entry.Becomes later) ∨
      index = ledger.length ∧ move = .addToken later.token := by
  cases move with
  | addToken token =>
    rw [act, List.getElem?_append] at hlater
    split at hlater
    · exact .inl ⟨later, hlater, .refl later⟩
    · rename_i hlast
      obtain ⟨hindex, rfl⟩ := List.getElem?_eq_some_iff.mp hlater
      rw [List.length_singleton] at hindex
      exact .inr ⟨by omega, by simp⟩
  | applyPresence presence =>
    rw [act] at hlater
    split at hlater
    · exact .inl ⟨later, hlater, .refl later⟩
    · exact .inl (getElem?_drop hlater)
  | shutdown => exact .inl (getElem?_drop hlater)
  | _ => exact .inl ⟨later, hlater, .refl later⟩

/-- An entry is an old one, or that of a token registered just now. -/
theorem getElem?_record {move : Move} {notices : List Notice} {ledger : Ledger} {index : Nat}
    {later : Entry} (hlater : (ledger.record move notices)[index]? = some later) :
    (∃ entry, ledger[index]? = some entry ∧ entry.Becomes later) ∨
      index = ledger.length ∧ move = .addToken later.token := by
  rw [record] at hlater
  generalize admissions notices = admissions at hlater
  induction admissions using List.reverseRecOn generalizing later with
  | nil => exact getElem?_act hlater
  | append_singleton admissions admission ih =>
    rw [List.foldl_concat] at hlater
    obtain ⟨entry, hentry, hbecomes⟩ := getElem?_consume hlater
    rcases ih hentry with ⟨first, hfirst, hbefore⟩ | ⟨hindex, rfl⟩
    · exact .inl ⟨first, hfirst, hbefore.trans hbecomes⟩
    · exact .inr ⟨hindex, by rw [hbecomes.1]⟩

end Ledger

/-- The application had been turned away when this token was registered. -/
def CameLate (authWait : Nat) (moves : List Move) (id index : Nat) : Prop :=
  ∃ before token after, moves = before ++ .addToken token :: after ∧
    (registered before).length = index ∧
    .decided id (.error .noMatchingToken) ∈ (Chronicle.ofMoves authWait before).notices

theorem CameLate.concat {authWait : Nat} {moves : List Move} {id index : Nat}
    (h : CameLate authWait moves id index) (move : Move) :
    CameLate authWait (moves ++ [move]) id index := by
  obtain ⟨before, token, after, rfl, hindex, hrefused⟩ := h
  exact ⟨before, token, after ++ [move], by simp, hindex, hrefused⟩

/-- A pending token of the ledger is one of the host's. -/
theorem Accounted.mem_tokens {moves : List Move} {c : Chronicle} (h : Accounted moves c)
    {entry : Entry} (hentry : entry ∈ c.ledger) (hpending : entry.fate = .pending) :
    entry.token ∈ c.host.registry.tokens := by
  rw [← h.pending]
  exact List.mem_filterMap.mpr ⟨entry, hentry, Entry.pending?_of_pending hpending⟩

/-- Who used a token up was let in on it. -/
theorem Accounted.exists_admitted {moves : List Move} {c : Chronicle} (h : Accounted moves c)
    {entry : Entry} {id : Nat} (hentry : entry ∈ c.ledger) (hfate : entry.fate = .consumed id) :
    ∃ seat, .admitted id entry.token seat ∈ c.notices := by
  have hconsumed : (id, entry.token) ∈ c.ledger.consumptions :=
    List.mem_filterMap.mpr ⟨entry, hentry, by rw [Entry.consumption?, hfate]⟩
  obtain ⟨⟨applicant, token, seat⟩, hadmission, heq⟩ :=
    List.mem_map.mp (h.consumed.mem_iff.mp hconsumed)
  obtain ⟨rfl, rfl⟩ := Prod.mk.inj heq
  exact ⟨seat, mem_admissions.mp hadmission⟩

/-- Where nothing is to be found, an entry that would be for the bearer is not pending. -/
theorem Accounted.admitted_or_gone {moves : List Move} {c : Chronicle} (h : Accounted moves c)
    {entry : Entry} {endpoint : Endpoint} {presented : Block 16} (hentry : entry ∈ c.ledger)
    (hadmits : admits presented endpoint entry.token = true)
    (hnone : ∀ token ∈ c.host.registry.tokens, ¬ admits presented endpoint token = true)
    (id : Nat) : (∃ seat, .admitted id entry.token seat ∈ c.notices) ∨ entry.IsGone id := by
  cases hfate : entry.fate with
  | pending => exact absurd hadmits (hnone _ (h.mem_tokens hentry hfate))
  | consumed other =>
    by_cases hown : other = id
    · subst hown
      exact .inl (h.exists_admitted hentry hfate)
    · right
      rw [Entry.IsGone, hfate]
      exact hown
  | _ =>
    right
    rw [Entry.IsGone, hfate]
    trivial

/-- An application and a token that is for it: the application waits or was let in, or the token is
out of its reach. -/
def Provided (authWait : Nat) (moves : List Move) (id index : Nat) (entry : Entry) : Prop :=
  let c := Chronicle.ofMoves authWait moves
  c.host.HasApplicant id ∨ (∃ token seat, .admitted id token seat ∈ c.notices) ∨
    entry.IsGone id ∨ CameLate authWait moves id index

/-- What is so of an application that is there stays so, whatever comes next. -/
theorem Provided.concat {authWait : Nat} {moves : List Move} {id index : Nat} {entry later : Entry}
    {endpoint : Endpoint} {presented : Block 16} (h : Provided authWait moves id index entry)
    (hindex : (Chronicle.ofMoves authWait moves).ledger[index]? = some entry)
    (hbecomes : entry.Becomes later)
    (happlied : (applied moves)[id]? = some (endpoint, presented))
    (hadmits : admits presented endpoint entry.token = true) (move : Move) :
    Provided authWait (moves ++ [move]) id index later := by
  have hnotices := Chronicle.notices_concat authWait moves move
  have hhost := Chronicle.host_concat authWait moves move
  obtain ⟨haccounted, hwaiting⟩ := accounted_ofMoves authWait moves
  have hheard := heard_ofMoves authWait moves
  rcases h with ⟨applicant, hmem, rfl⟩ | ⟨token, seat, hadmitted⟩ | hgone | hlate
  · have hown : (applicant.endpoint, applicant.presented) = (endpoint, presented) :=
      Option.some.inj ((hwaiting.applicants applicant hmem).symm.trans happlied)
    obtain ⟨rfl, rfl⟩ := Prod.mk.inj hown
    have hhearing := (Chronicle.ofMoves authWait moves).host.hearing move
    generalize (Chronicle.ofMoves authWait moves).host.move move = scene at *
    cases hhearing with
    | aside hquiet =>
      refine .inl ⟨applicant, ?_, rfl⟩
      rw [hhost, hquiet.applicants]
      exact hmem
    | applied =>
      refine .inl ⟨applicant, ?_, rfl⟩
      rw [hhost]
      exact List.mem_append_left _ hmem
    | waitsOn =>
      refine .inl ⟨applicant, ?_, rfl⟩
      rw [hhost]
      exact hmem
    | @turnedAway now link other hother hclaim =>
      by_cases hsame : applicant.id = other.id
      · -- It looked and found nothing: the token is not pending any more.
        obtain rfl := hheard.numbered.eq_of_id hmem hother hsame
        rcases haccounted.admitted_or_gone (List.mem_of_getElem? hindex) hadmits
          (Host.claim?_eq_none_iff.mp hclaim) applicant.id with ⟨seat, hadmitted⟩ | hgone
        · refine .inr (.inl ⟨entry.token, seat, ?_⟩)
          rw [hnotices]
          exact List.mem_append_left _ hadmitted
        · exact .inr (.inr (.inl (hgone.becomes hbecomes)))
      · refine .inl ⟨applicant, ?_, rfl⟩
        rw [hhost]
        exact Host.mem_applicants_dropApplicant.mpr ⟨hmem, hsame⟩
    | @letIn now link other claim hother =>
      by_cases hsame : applicant.id = other.id
      · refine .inr (.inl ⟨claim.token, claim.seat, ?_⟩)
        rw [hnotices, hsame]
        exact List.mem_append_right _ List.mem_cons_self
      · refine .inl ⟨applicant, ?_, rfl⟩
        rw [hhost]
        exact Host.mem_applicants_dropApplicant.mpr ⟨hmem, hsame⟩
  · refine .inr (.inl ⟨token, seat, ?_⟩)
    rw [hnotices]
    exact List.mem_append_left _ hadmitted
  · exact .inr (.inr (.inl (hgone.becomes hbecomes)))
  · exact .inr (.inr (.inr (hlate.concat move)))

/-- A token that is for an application is never passed over. -/
theorem provided_ofMoves (authWait : Nat) (moves : List Move) {id index : Nat} {entry : Entry}
    {endpoint : Endpoint} {presented : Block 16}
    (hentry : (Chronicle.ofMoves authWait moves).ledger[index]? = some entry)
    (happlied : (applied moves)[id]? = some (endpoint, presented))
    (hadmits : admits presented endpoint entry.token = true) :
    Provided authWait moves id index entry := by
  induction moves using List.reverseRecOn generalizing entry with
  | nil => exact nomatch hentry
  | append_singleton moves move ih =>
    obtain ⟨haccounted, hwaiting⟩ := accounted_ofMoves authWait moves
    by_cases hold : id < (applied moves).length
    · have happlied' : (applied moves)[id]? = some (endpoint, presented) := by
        rw [applied_concat, List.getElem?_append_left hold] at happlied
        exact happlied
      have hrecord := hentry
      rw [Chronicle.ofMoves_concat] at hrecord
      rcases Ledger.getElem?_record hrecord with ⟨first, hfirst, hbecomes⟩ | ⟨hindex, rfl⟩
      · have hadmits' : admits presented endpoint first.token = true := by
          rw [← hbecomes.1]
          exact hadmits
        exact (ih hfirst happlied' hadmits').concat hfirst hbecomes happlied' hadmits' move
      · have hhost := Chronicle.host_concat authWait moves (.addToken entry.token)
        have hnotices := Chronicle.notices_concat authWait moves (.addToken entry.token)
        rcases (heard_ofMoves authWait moves).answered id (hwaiting.applications ▸ hold) with
          ⟨applicant, hmem, hid⟩ | ⟨token, seat, hadmitted⟩ | hrefused
        · refine .inl ⟨applicant, ?_, hid⟩
          rw [hhost]
          exact hmem
        · refine .inr (.inl ⟨token, seat, ?_⟩)
          rw [hnotices]
          exact List.mem_append_left _ hadmitted
        · refine .inr (.inr (.inr ⟨moves, entry.token, [], rfl, ?_, hrefused⟩))
          rw [← haccounted.registered, List.length_map]
          exact hindex.symm
    · -- The application is made just now, and nobody has looked for it yet.
      rw [applied_concat, List.getElem?_append_right (Nat.not_lt.mp hold)] at happlied
      cases move with
      | apply now endpoint offer =>
        obtain ⟨hid, -⟩ := List.getElem?_eq_some_iff.mp happlied
        have hlast : id = (applied moves).length := by
          simp only [Move.application?, Option.toList_some, List.length_singleton] at hid
          omega
        left
        rw [Host.HasApplicant, Chronicle.host_concat, hlast, ← hwaiting.applications]
        exact ⟨_, List.mem_append_right _ (List.mem_singleton_self _), rfl⟩
      | _ => simp [Move.application?] at happlied

end LocalPlay.Overlay
