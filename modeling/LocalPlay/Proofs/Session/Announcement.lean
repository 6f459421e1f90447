import LocalPlay.Proofs.Session.Moment

/-!
# Networks and what is announced of them

A session is in a network from the relay's confirmation until it leaves; both can be read off its
history. Whoever listens is told of both, but also of every description of a network that the relay
sends, and that is not tied to being in one. Such a description is stray if the session is in no
network; after it listeners believe in a network until one is joined.
-/

namespace LocalPlay.Session

open Net Wire Overlay Timing

/-- What the notice says about being in a network. -/
def Notice.joined? : Notice → Option Bool
  | handled _ (.connected _) => some true
  | changed change => if change.connected then none else some false
  | _ => none

/-- What listeners are told about being in a network. -/
def Notice.published? : Notice → Option Bool
  | changed change => some change.connected
  | _ => none

def Notice.isDescription : Notice → Bool
  | handled _ (.syncNetwork _) => true
  | _ => false

/-- The relay confirmed a network, and it was not left since. -/
def Joined (history : List Notice) : Prop :=
  latest Notice.joined? history = some true

/-- Every network the relay described was one the session was in, or one was joined later. -/
def NoneStray (history : List Notice) : Prop :=
  ∀ before sender info after, history = before ++ .handled sender (.syncNetwork info) :: after →
    Joined before ∨ ∃ sender info, .handled sender (.connected info) ∈ after

/-- The notice changes what the history says of networks. -/
def Notice.isOfNetwork (notice : Notice) : Bool :=
  notice.joined?.isSome || notice.published?.isSome || notice.isDescription

theorem Notice.isOfNetwork_eq_false {notice : Notice} : notice.isOfNetwork = false ↔
    notice.joined? = none ∧ notice.published? = none ∧ notice.isDescription = false := by
  rw [isOfNetwork, Bool.or_eq_false_iff, Bool.or_eq_false_iff, Option.isSome_eq_false_iff,
    Option.isSome_eq_false_iff, Option.isNone_iff_eq_none, Option.isNone_iff_eq_none, and_assoc]

theorem Notice.isOfNetwork_of_incidental {notice : Notice} (hnotice : notice.isIncidental = true) :
    notice.isOfNetwork = false := by
  cases notice with
  | handled sender packet =>
    cases packet with
    | connected info => exact nomatch hnotice
    | syncNetwork info => exact nomatch hnotice
    | _ => rfl
  | changed change => exact nomatch hnotice
  | _ => rfl

theorem Notice.eq_of_joined? {notice : Notice} (hnotice : notice.joined? = some true) :
    ∃ sender info, notice = .handled sender (.connected info) := by
  cases notice with
  | handled sender packet =>
    cases packet with
    | connected info => exact ⟨sender, info, rfl⟩
    | _ => exact nomatch hnotice
  | changed change =>
    rw [joined?] at hnotice
    split at hnotice
    · exact nomatch hnotice
    · exact nomatch hnotice
  | _ => exact nomatch hnotice

section Histories

variable {history more : List Notice}

theorem joined_append (hmore : ∀ notice ∈ more, notice.joined? = none) :
    Joined (history ++ more) ↔ Joined history := by
  rw [Joined, latest_append_of_silent hmore, Joined]

theorem noneStray_of_joined (hjoined : Joined history) : NoneStray history := by
  rintro before sender info after rfl
  rw [Joined, latest_append] at hjoined
  rcases Option.or_eq_some_iff.mp hjoined with hlater | ⟨-, hbefore⟩
  · right
    obtain ⟨notice, hmem, hnotice⟩ := List.exists_of_findSome?_eq_some hlater
    rcases List.mem_cons.mp (List.mem_reverse.mp hmem) with rfl | hmem
    · exact nomatch hnotice
    · obtain ⟨source, found, rfl⟩ := Notice.eq_of_joined? hnotice
      exact ⟨source, found, hmem⟩
  · exact .inl hbefore

theorem noneStray_append (hmore : ∀ notice ∈ more, notice.isDescription = false ∧
    notice.joined? ≠ some true) : NoneStray (history ++ more) ↔ NoneStray history := by
  constructor
  · rintro hnone before sender info after rfl
    rcases hnone before sender info (after ++ more) (by simp) with hjoined | ⟨source, found, hmem⟩
    · exact .inl hjoined
    · rcases List.mem_append.mp hmem with hmem | hmem
      · exact .inr ⟨source, found, hmem⟩
      · exact absurd rfl (hmore _ hmem).2
  · intro hnone before sender info after hsplit
    rcases split_append hsplit with ⟨rest, rfl, rfl⟩ | ⟨between, rfl, rfl⟩
    · rcases hnone before sender info rest rfl with hjoined | ⟨source, found, hmem⟩
      · exact .inl hjoined
      · exact .inr ⟨source, found, List.mem_append_left _ hmem⟩
    · exact nomatch (hmore _ (List.mem_append_right _ List.mem_cons_self)).1

/-- A description is stray unless the session is in a network at the time. -/
theorem noneStray_describe {sender : Endpoint} {info : NetworkInfo}
    (hmore : ∀ notice ∈ more, notice.joined? = none) :
    NoneStray (history ++ .handled sender (.syncNetwork info) :: more) ↔ Joined history := by
  constructor
  · intro hnone
    rcases hnone history sender info more rfl with hjoined | ⟨source, found, hmem⟩
    · exact hjoined
    · exact nomatch hmore _ hmem
  · intro hjoined
    refine noneStray_of_joined ((joined_append ?_).mpr hjoined)
    exact List.forall_mem_cons.mpr ⟨rfl, hmore⟩

end Histories

/-- What the history says of networks, and what listeners were told. -/
structure Announced (history : List Notice) (s : Session) : Prop where
  joined : s.inNetwork = true ↔ Joined history
  published : ∀ connected, latest Notice.published? history = some connected →
    (connected = s.inNetwork ↔ NoneStray history)

namespace Announced

variable {history more : List Notice} {origin s t : Session} {m : Move}

theorem quiet (h : Announced history s) (hnetwork : t.inNetwork = s.inNetwork)
    (hmore : ∀ notice ∈ more, notice.isOfNetwork = false) : Announced (history ++ more) t := by
  have hsilent := fun notice hmem => Notice.isOfNetwork_eq_false.mp (hmore notice hmem)
  refine ⟨?_, fun connected hlatest => ?_⟩
  · rw [hnetwork, joined_append fun notice hmem => (hsilent notice hmem).1]
    exact h.joined
  · rw [latest_append_of_silent fun notice hmem => (hsilent notice hmem).2.1] at hlatest
    have hnone : NoneStray (history ++ more) ↔ NoneStray history :=
      noneStray_append fun notice hmem => ⟨(hsilent notice hmem).2.2, by
        rw [(hsilent notice hmem).1]
        exact nofun⟩
    rw [hnetwork, hnone]
    exact h.published connected hlatest

theorem step (h : Announced history s) (hstep : Step origin m s t more) :
    Announced (history ++ more) t := by
  cases hstep with
  | say notice hnotice =>
    exact h.quiet rfl (List.forall_mem_singleton.mpr (Notice.isOfNetwork_of_incidental hnotice))
  | join sender info =>
    have hjoined : Joined (history ++
        [.handled sender (.connected info), .changed (.arrived info)]) := by
      rw [Joined, latest_append]
      rfl
    refine ⟨⟨fun _ => hjoined, fun _ => rfl⟩, fun connected hlatest => ?_⟩
    rw [latest_append] at hlatest
    obtain rfl : true = connected := Option.some.inj hlatest
    exact ⟨fun _ => noneStray_of_joined hjoined, fun _ => rfl⟩
  | syncNetwork sender info refusal =>
    have hmore : ∀ notice ∈ [Notice.posted none .relay (.syncNetwork info) refusal,
        .changed (.arrived info)], notice.joined? = none :=
      List.forall_mem_cons.mpr ⟨rfl, List.forall_mem_singleton.mpr rfl⟩
    refine ⟨?_, fun connected hlatest => ?_⟩
    · rw [joined_append (List.forall_mem_cons.mpr ⟨rfl, hmore⟩)]
      exact h.joined
    · rw [latest_append] at hlatest
      obtain rfl : true = connected := Option.some.inj hlatest
      rw [noneStray_describe hmore, ← h.joined]
      exact eq_comm
  | leave hnetwork hhosted =>
    refine ⟨?_, fun connected hlatest => ?_⟩
    · rw [Joined, latest_append]
      exact ⟨nofun, nofun⟩
    · rw [latest_append] at hlatest
      obtain rfl : false = connected := Option.some.inj hlatest
      have hsilent : (Notice.changed (.left s.leaveReason)).isDescription = false ∧
          (Notice.changed (.left s.leaveReason)).joined? ≠ some true := by
        simp [Notice.isDescription, Notice.joined?, NetworkChange.left]
      have hleft := (noneStray_append (List.forall_mem_singleton.mpr hsilent)).mpr
        (noneStray_of_joined (h.joined.mp hnetwork))
      exact ⟨fun _ => hleft, fun _ => rfl⟩
  | openLink =>
    exact h.quiet rfl (List.forall_mem_cons.mpr ⟨rfl, List.forall_mem_singleton.mpr rfl⟩)
  | closeLink receiver hmove hnetwork => exact h.quiet rfl (List.forall_mem_singleton.mpr rfl)
  | updatePassphrase => exact h.quiet rfl (List.forall_mem_singleton.mpr rfl)
  | ask => exact h.quiet rfl (List.forall_mem_singleton.mpr rfl)
  | goOn => exact h.quiet rfl (List.forall_mem_singleton.mpr rfl)
  | confirm => exact h.quiet rfl (List.forall_mem_singleton.mpr rfl)
  | settle => exact h.quiet rfl (List.forall_mem_singleton.mpr rfl)
  | greet => exact h.quiet rfl (List.forall_mem_singleton.mpr rfl)
  | reject => exact h.quiet rfl (List.forall_mem_singleton.mpr rfl)
  | _ => exact h.quiet rfl (fun _ => nofun)

end Announced

/-- The session is in a network from the relay's confirmation until it leaves. Listeners who were
told anything were told last whether it is in one in exactly the runs in which no description of a
network was stray. -/
theorem announced_iff {settings : Settings} {interfaces : Interfaces}
    {localAddress : Except IoError Endpoint} {s : Session}
    (hcreate : create settings interfaces localAddress = .ok s) (moves : List Move) :
    ((s.after moves).session.inNetwork = true ↔ Joined (s.after moves).told) ∧
    ∀ connected, latest Notice.published? (s.after moves).told = some connected →
      (connected = (s.after moves).session.inNetwork ↔ NoneStray (s.after moves).told) := by
  have hannounced : Invariant s moves Announced := by
    refine ⟨?_, fun _ _ h hstep => h.step hstep⟩
    obtain ⟨relay, rfl⟩ := create_eq hcreate
    exact ⟨⟨nofun, nofun⟩, fun _ => nofun⟩
  have hlast := hannounced.after List.prefix_rfl
  exact ⟨hlast.joined, hlast.published⟩

/-- The relay confirms a network and describes it. -/
theorem announced_of_description :
    let moves := [sampleCall (.scan default), .turn (.resume 0),
      sampleDatagram (.connected default), sampleDatagram (.syncNetwork default)]
    create {} (.ok []) (.ok sampleAddress) = .ok sample ∧
      latest Notice.published? (sample.after moves).told = some true ∧
      (sample.after moves).session.inNetwork = true ∧ NoneStray (sample.after moves).told := by
  intro moves
  have hcreate : create {} (.ok []) (.ok sampleAddress) = .ok sample := rfl
  let early := [sampleCall (.scan default), .turn (.resume 0)]
  have hjoin : sample.after (early ++ [sampleDatagram (.connected default)]) = _ :=
    after_sampleDatagram _ (by decide +kernel) (by decide +kernel) (by decide +kernel)
      (by decide +kernel)
  have hdescribe : sample.after moves = _ :=
    after_sampleDatagram (early ++ [sampleDatagram (.connected default)])
      (by decide +kernel) (by rw [hjoin]; decide +kernel) (by rw [hjoin]; decide +kernel)
      (by rw [hjoin]; decide +kernel)
  have hlatest : latest Notice.published? (sample.after moves).told = some true := by
    rw [hdescribe, hjoin]
    decide +kernel
  have hnetwork : (sample.after moves).session.inNetwork = true := by
    rw [hdescribe, hjoin]
    decide +kernel
  exact ⟨hcreate, hlatest, hnetwork,
    ((announced_iff hcreate moves).2 true hlatest).mp hnetwork.symm⟩

/-- The relay describes a network, though the session is in none; then nothing is left to do. -/
theorem announced_without_network :
    let moves := [sampleCall (.scan default), .turn (.resume 0),
      sampleDatagram (.syncNetwork default)]
    create {} (.ok []) (.ok sampleAddress) = .ok sample ∧
      (sample.after moves).session.ready = [] ∧
      latest Notice.published? (sample.after moves).told = some true ∧
      (sample.after moves).session.inNetwork = false := by
  intro moves
  have hdescribe : sample.after moves = _ :=
    after_sampleDatagram [sampleCall (.scan default), .turn (.resume 0)]
      (by decide +kernel) (by decide +kernel) (by decide +kernel) (by decide +kernel)
  rw [hdescribe]
  exact ⟨rfl, by decide +kernel, by decide +kernel, by decide +kernel⟩

end LocalPlay.Session
