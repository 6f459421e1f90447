import LocalPlay.Proofs.Overlay.Applicants

/-!
# What failed applications leave behind

An application fails because no token is for it, or because the link refuses the answer. In the
first case it has only ever waited. In the second it was let in before: the token is gone, the seat
is granted, whoever sat at the endpoint has lost his, and all this stays although the application
counts as failed. So a failed application has left no trace exactly if no token was for it.

What an application comes to is said once, `Final`. So one that was turned away was never let in.
-/

namespace LocalPlay.Overlay

open Net Wire

namespace Host

/-- The move is the applicant's with this number: his application, or a look at the tokens. -/
def Makes (host : Host) (id : Nat) (move : Move) : Prop :=
  (move.start?.isSome = true ∧ host.applications = id) ∨ move.look? = some id

/-- Tokens, seats, the overlay and the workers are as before, and nobody is told to end. -/
structure Traceless (host : Host) (scene : Scene) : Prop where
  registry : scene.host.registry = host.registry
  workers : scene.host.workers = host.workers
  undismissed : ∀ seat, .dismiss seat ∉ scene.jobs

/-- Whoever is let in hears so once, and if it is that the answer was lost the link refused it. -/
theorem exists_answer_letIn (host : Host) (link : Link) (applicant : Applicant)
    (claim : Registry.Claim) :
    ∃ answer, .decided applicant.id answer ∈ (host.letIn link applicant claim).notices ∧
      (∀ id result, .decided id result ∈ (host.letIn link applicant claim).notices →
        id = applicant.id ∧ result = answer) ∧
      ∀ refusal, answer = .error (.linkDown refusal) →
        link (.peer applicant.endpoint) (.overlayConfig (assigned claim.token)) = some refusal := by
  cases hlink : link (.peer applicant.endpoint) (.overlayConfig (assigned claim.token)) with
  | none => exact ⟨.ok (assigned claim.token), by simp [letIn, hlink]⟩
  | some error => exact ⟨.error (.linkDown error), by simp [letIn, hlink]⟩

end Host

open Host (Move)

/-- Whatever the applicant with this number did left everything else as it was. -/
def LeavesNoTrace (authWait : Nat) (moves : List Move) (id : Nat) : Prop :=
  ∀ before move after, moves = before ++ move :: after →
    (Chronicle.ofMoves authWait before).host.Makes id move →
      (Chronicle.ofMoves authWait before).host.Traceless
        ((Chronicle.ofMoves authWait before).host.move move)

/-- The applicant with this number was let in like any other, and the link refused to tell him. -/
def Unheard (authWait : Nat) (moves : List Move) (id : Nat) (refusal : SendError) : Prop :=
  ∃ before now link after applicant claim,
    moves = before ++ .perform now link (.consider id) :: after ∧
    let host := (Chronicle.ofMoves authWait before).host
    applicant.id = id ∧
    host.registry.claim? host.grants applicant.endpoint applicant.presented = some claim ∧
    link (.peer applicant.endpoint) (.overlayConfig (assigned claim.token)) = some refusal ∧
    host.move (.perform now link (.consider id)) = host.letIn link applicant claim

/-! ### Every application is decided once -/

/-- What an application comes to is said once, and the applicant waits no longer then. -/
structure Final (c : Chronicle) : Prop where
  past : ∀ id result, .decided id result ∈ c.notices →
    id < c.host.applications ∧ ¬ c.host.HasApplicant id
  once : ∀ id result other, .decided id result ∈ c.notices → .decided id other ∈ c.notices →
    result = other

namespace Final

variable {c : Chronicle}

/-- One of those who wait hears what his application comes to. -/
theorem answer (h : Final c) {applicant : Applicant} (hmem : applicant ∈ c.host.applicants)
    (hbelow : applicant.id < c.host.applications) {scene : Scene} {ledger : Ledger}
    (happlicants : scene.host.applicants = (c.host.dropApplicant applicant.id).applicants)
    (happlications : scene.host.applications = c.host.applications)
    {answer : Except ProxyError OverlayConfig} (hanswer : ∀ id result,
      .decided id result ∈ scene.notices → id = applicant.id ∧ result = answer) :
    Final ⟨scene.host, c.notices ++ scene.notices, ledger⟩ := by
  have hdropped {id : Nat} (hhas : scene.host.HasApplicant id) :
      c.host.HasApplicant id ∧ id ≠ applicant.id := by
    obtain ⟨other, hother, rfl⟩ := hhas
    rw [happlicants, Host.mem_applicants_dropApplicant] at hother
    exact ⟨⟨other, hother.1, rfl⟩, hother.2⟩
  have hwaits (result : Except ProxyError OverlayConfig) :
      .decided applicant.id result ∉ c.notices :=
    fun hdecided => (h.past _ _ hdecided).2 ⟨applicant, hmem, rfl⟩
  refine ⟨fun id result hdecided => ?_, fun id result other hresult hother => ?_⟩
  · show id < scene.host.applications ∧ ¬ scene.host.HasApplicant id
    rw [happlications]
    rcases List.mem_append.mp hdecided with hold | hnew
    · exact ⟨(h.past id result hold).1, fun hhas => (h.past id result hold).2 (hdropped hhas).1⟩
    · obtain ⟨rfl, -⟩ := hanswer id result hnew
      exact ⟨hbelow, fun hhas => (hdropped hhas).2 rfl⟩
  · rcases List.mem_append.mp hresult with hresult | hresult
    · rcases List.mem_append.mp hother with hother | hother
      · exact h.once id result other hresult hother
      · obtain ⟨rfl, -⟩ := hanswer id other hother
        exact absurd hresult (hwaits result)
    · obtain ⟨rfl, rfl⟩ := hanswer id result hresult
      rcases List.mem_append.mp hother with hother | hother
      · exact absurd hother (hwaits other)
      · exact (hanswer _ other hother).2.symm

theorem next (h : Final c) (hbelow : ∀ applicant ∈ c.host.applicants,
    applicant.id < c.host.applications) (move : Move) : Final (c.next move) := by
  have hhearing := c.host.hearing move
  rw [Chronicle.next]
  generalize c.host.move move = scene at hhearing
  cases hhearing with
  | aside hquiet =>
    have hold {id : Nat} {result : Except ProxyError OverlayConfig}
        (hdecided : .decided id result ∈ c.notices ++ scene.notices) :
        .decided id result ∈ c.notices := by
      rcases List.mem_append.mp hdecided with hold | hnew
      · exact hold
      · exact absurd hnew (hquiet.undecided id result)
    refine ⟨fun id result hdecided => ?_, fun id result other hresult hother => ?_⟩
    · rw [Host.HasApplicant, hquiet.applicants, hquiet.applications]
      exact h.past id result (hold hdecided)
    · exact h.once id result other (hold hresult) (hold hother)
  | applied now endpoint offer =>
    simp only [Host.apply, List.append_nil]
    refine ⟨fun id result hdecided => ?_, h.once⟩
    obtain ⟨hlt, hgone⟩ := h.past id result hdecided
    refine ⟨Nat.lt_succ_of_lt hlt, ?_⟩
    rintro ⟨applicant, happlicant, rfl⟩
    rcases List.mem_append.mp happlicant with hwaiting | hnew
    · exact hgone ⟨applicant, hwaiting, rfl⟩
    · obtain rfl := List.mem_singleton.mp hnew
      exact Nat.lt_irrefl _ hlt
  | waitsOn =>
    simp only [List.append_nil]
    exact ⟨h.past, h.once⟩
  | turnedAway hmem =>
    exact h.answer hmem (hbelow _ hmem) rfl rfl fun id result hdecided => by
      simpa using hdecided
  | @letIn now link applicant claim hmem =>
    obtain ⟨answer, -, honly, -⟩ := c.host.exists_answer_letIn link applicant claim
    exact h.answer hmem (hbelow _ hmem) rfl rfl honly

end Final

theorem final_ofMoves (authWait : Nat) (moves : List Move) : Final (.ofMoves authWait moves) := by
  induction moves using List.reverseRecOn with
  | nil =>
    constructor
    · intro id result hdecided
      cases hdecided
    · intro id result other hresult
      cases hresult
  | append_singleton moves move ih =>
    rw [Chronicle.ofMoves_concat]
    apply ih.next
    intro applicant hmem
    exact (heard_ofMoves authWait moves).numbered.below _ (List.mem_map_of_mem hmem)

/-! ### The moves of an applicant -/

variable {authWait : Nat} {moves : List Move} {id : Nat}

namespace Host

/-- An applicant leaves everything as it is but when he is let in. -/
theorem traceless_or_letIn {host : Host} {move : Move} (hmakes : host.Makes id move) :
    host.Traceless (host.move move) ∨
    ∃ now link applicant claim, move = .perform now link (.consider id) ∧ applicant.id = id ∧
      host.registry.claim? host.grants applicant.endpoint applicant.presented = some claim ∧
      host.move move = host.letIn link applicant claim := by
  have hhearing := host.hearing move
  generalize host.move move = scene at hhearing
  cases hhearing with
  | aside h =>
    rcases hmakes with ⟨hstart, -⟩ | hlook
    · simp [h.start?] at hstart
    · simp [h.look?] at hlook
  | applied now endpoint offer => exact .inl ⟨rfl, rfl, by simp [apply]⟩
  | waitsOn => exact .inl ⟨rfl, rfl, by simp⟩
  | turnedAway => exact .inl ⟨rfl, rfl, by simp⟩
  | @letIn now link applicant claim hmem hclaim =>
    rcases hmakes with ⟨hstart, -⟩ | hlook
    · cases hstart
    · obtain rfl := Option.some.inj hlook
      exact .inr ⟨now, link, applicant, claim, rfl, rfl, hclaim, rfl⟩

theorem not_traceless_letIn {host : Host} {link : Link} {applicant : Applicant}
    {claim : Registry.Claim} : ¬ host.Traceless (host.letIn link applicant claim) := by
  intro htraceless
  have hlength := congrArg List.length htraceless.workers
  simp [letIn] at hlength

/-- Whoever hears that the answer was lost has just been let in. -/
theorem letIn_of_linkDown {host : Host} {move : Move} {refusal : SendError}
    (hdecided : .decided id (.error (.linkDown refusal)) ∈ (host.move move).notices) :
    ∃ now link applicant claim, move = .perform now link (.consider id) ∧ applicant.id = id ∧
      host.registry.claim? host.grants applicant.endpoint applicant.presented = some claim ∧
      link (.peer applicant.endpoint) (.overlayConfig (assigned claim.token)) = some refusal ∧
      host.move move = host.letIn link applicant claim := by
  have hhearing := host.hearing move
  generalize host.move move = scene at hhearing hdecided
  cases hhearing with
  | aside h => exact absurd hdecided (h.undecided _ _)
  | applied => simp [apply] at hdecided
  | waitsOn => simp at hdecided
  | turnedAway => simp at hdecided
  | @letIn now link applicant claim hmem hclaim =>
    obtain ⟨answer, -, honly, hrefused⟩ := host.exists_answer_letIn link applicant claim
    obtain ⟨rfl, hanswer⟩ := honly _ _ hdecided
    exact ⟨now, link, applicant, claim, rfl, rfl, hclaim, hrefused refusal hanswer.symm, rfl⟩

end Host

/-- An application that failed has left no trace exactly if no token was for it. If it failed since
its answer was lost it had been let in before, and nothing of that was taken back. -/
theorem leaves_no_trace_iff {error : ProxyError}
    (hdecided : .decided id (.error error) ∈ (Chronicle.ofMoves authWait moves).notices) :
    (LeavesNoTrace authWait moves id ↔ error = .noMatchingToken) ∧
      ∀ refusal, error = .linkDown refusal → Unheard authWait moves id refusal := by
  have hlost (refusal : SendError) (herror : error = .linkDown refusal) :
      Unheard authWait moves id refusal := by
    subst herror
    obtain ⟨before, move, after, rfl, hmove⟩ := Chronicle.exists_move hdecided
    obtain ⟨now, link, applicant, claim, rfl, hletIn⟩ := Host.letIn_of_linkDown hmove
    exact ⟨before, now, link, after, applicant, claim, rfl, hletIn⟩
  refine ⟨⟨fun htraceless => ?_, ?_⟩, hlost⟩
  · cases error with
    | noMatchingToken => rfl
    | linkDown refusal =>
      obtain ⟨before, now, link, after, applicant, claim, hmoves, -, -, -, hscene⟩ :=
        hlost refusal rfl
      have hmade := htraceless before _ after hmoves (.inr rfl)
      rw [hscene] at hmade
      exact absurd hmade Host.not_traceless_letIn
  · rintro rfl before move after hmoves hmakes
    rcases Host.traceless_or_letIn hmakes with
      htraceless | ⟨now, link, applicant, claim, rfl, rfl, -, hscene⟩
    · exact htraceless
    · -- Who is let in hears of it at once, and hears nothing else ever after.
      obtain ⟨answer, hanswer, -⟩ := Host.exists_answer_letIn _ link applicant claim
      have hmade := hanswer
      rw [← hscene] at hmade
      have hother := Chronicle.mem_notices hmoves hmade
      have hsame := (final_ofMoves authWait moves).once _ _ _ hother hdecided
      exact absurd hsame (Host.decided_of_mem_letIn hanswer).2

/-- No token ever comes, and the applicant is turned away when its time is over. -/
theorem leaves_no_trace_without_token :
    let endpoint : Endpoint := { ip := .v4 .zero, port := 7 }
    let offer : ProxyOffer := { ip := .zero, family := .v4, port := 0, token := .zero }
    let link : Link := fun _ _ => none
    let moves : List Move := [.apply 0 endpoint offer, .perform 0 link (.consider 0),
      .perform 1000 link (.consider 0)]
    .decided 0 (.error .noMatchingToken) ∈ (Chronicle.ofMoves 1000 moves).notices ∧
      LeavesNoTrace 1000 moves 0 := by
  intro endpoint offer link moves
  have hdecided :
      .decided 0 (.error .noMatchingToken) ∈ (Chronicle.ofMoves 1000 moves).notices := .head _
  exact ⟨hdecided, (leaves_no_trace_iff hdecided).1.mpr rfl⟩

/-- The answer cannot be sent. The application has failed, but the token is gone, the seat is
granted, and the overlay is set. -/
theorem trace_of_lost_answer :
    let endpoint : Endpoint := { ip := .v4 .zero, port := 7 }
    let offer : ProxyOffer := { ip := .zero, family := .v4, port := 0, token := .zero }
    let link : Link := fun _ _ => some (.io .hostUnreachable)
    let early : List Move := [.addToken ⟨1, .zero, .zero, .v4⟩, .apply 0 endpoint offer]
    let moves := early ++ [.perform 0 link (.consider 0)]
    .decided 0 (.error (.linkDown (.io .hostUnreachable))) ∈
        (Chronicle.ofMoves 1000 moves).notices ∧
      (Chronicle.ofMoves 1000 early).host.registry =
        { tokens := [⟨1, .zero, .zero, .v4⟩] } ∧
      (Chronicle.ofMoves 1000 moves).host.registry =
        { seats := [⟨0, endpoint, 1⟩], overlay := some ⟨1, subnetMask⟩ } ∧
      ¬ LeavesNoTrace 1000 moves 0 := by
  intro endpoint offer link early moves
  have hbefore : (Chronicle.ofMoves 1000 early).host.registry =
      { tokens := [⟨1, .zero, .zero, .v4⟩] } := by decide
  have hafter : (Chronicle.ofMoves 1000 moves).host.registry =
      { seats := [⟨0, endpoint, 1⟩], overlay := some ⟨1, subnetMask⟩ } := by decide
  refine ⟨.tail _ (.tail _ (.head _)), hbefore, hafter, fun htraceless => ?_⟩
  have hmade := (htraceless early _ [] rfl (.inr rfl)).registry
  rw [← Chronicle.host_concat, hbefore, hafter] at hmade
  exact absurd hmade (by decide)

end LocalPlay.Overlay
