import LocalPlay.Proofs.Numbering
import LocalPlay.Proofs.Overlay.Ledger

/-!
# Those who wait to be let in

An application begins to wait when it is made, and its time is over a fixed while later. Seen from
those who wait a move is one of five things, `hearing`: it does not concern them, or is a new
application, or is the look of one of them at the tokens, which lets it in, turns it away, or has it
wait on.

Every application has a window of its own, and it waits, was let in, or was turned away; that is
`Heard`, and whatever moves a host makes preserve it.
-/

namespace LocalPlay.Overlay

open Net Wire

namespace Host

/-- When the application that a move makes began to wait. -/
def Move.start? : Move → Option Nat
  | apply now _ _ => some now
  | _ => none

/-- Whose look at the tokens a move is. -/
def Move.look? : Move → Option Nat
  | perform _ _ (.consider id) => some id
  | _ => none

/-- The move is of no concern to those who wait, but that it may wake them for a new token. -/
structure Undisturbed (host : Host) (move : Move) (scene : Scene) : Prop where
  applicants : scene.host.applicants = host.applicants
  applications : scene.host.applications = host.applications
  authWait : scene.host.authWait = host.authWait
  application? : move.application? = none
  start? : move.start? = none
  look? : move.look? = none
  undecided : ∀ id result, .decided id result ∉ scene.notices
  woken : ∀ token ∈ scene.host.registry.tokens, token ∈ host.registry.tokens ∨
    ∀ applicant ∈ host.applicants, .consider applicant.id ∈ scene.jobs

/-- What a move means for those who wait. -/
inductive Hearing (host : Host) : Move → Scene → Prop
  | aside {move : Move} {scene : Scene} (h : host.Undisturbed move scene) : Hearing host move scene
  | applied (now : Nat) (endpoint : Endpoint) (offer : ProxyOffer) :
    Hearing host (.apply now endpoint offer) (host.apply now endpoint offer)
  | waitsOn {now : Nat} {link : Link} {id : Nat}
      (hlook : ∀ applicant, host.applicants.find? (·.id == id) = some applicant →
        host.registry.claim? host.grants applicant.endpoint applicant.presented = none ∧
          now < applicant.deadline) :
    Hearing host (.perform now link (.consider id)) { host }
  | turnedAway {now : Nat} {link : Link} {applicant : Applicant}
      (hmem : applicant ∈ host.applicants)
      (hclaim : host.registry.claim? host.grants applicant.endpoint applicant.presented = none)
      (hover : applicant.deadline ≤ now) :
    Hearing host (.perform now link (.consider applicant.id))
      { host := host.dropApplicant applicant.id
        notices := [.decided applicant.id (.error .noMatchingToken)] }
  | letIn {now : Nat} {link : Link} {applicant : Applicant} {claim : Registry.Claim}
      (hmem : applicant ∈ host.applicants)
      (hclaim : host.registry.claim? host.grants applicant.endpoint applicant.presented =
        some claim) :
    Hearing host (.perform now link (.consider applicant.id)) (host.letIn link applicant claim)

/-! ### Moves -/

/-- No pending token is for this bearer. -/
theorem claim?_eq_none_iff {r : Registry} {id : Nat} {endpoint : Endpoint} {presented : Block 16} :
    r.claim? id endpoint presented = none ↔
      ∀ token ∈ r.tokens, ¬ admits presented endpoint token = true := by
  rw [Registry.claim?, Option.map_eq_none_iff, List.find?_eq_none]

/-- What gives no token to the host and says nothing of those who wait. -/
theorem Undisturbed.ofSame {host : Host} {move : Move} {scene : Scene}
    (hhost : scene.host.applicants = host.applicants ∧
      scene.host.applications = host.applications ∧ scene.host.authWait = host.authWait)
    (hmove : move.application? = none ∧ move.start? = none ∧ move.look? = none)
    (hnotices : ∀ id result, .decided id result ∉ scene.notices)
    (htokens : scene.host.registry.tokens ⊆ host.registry.tokens) :
    Undisturbed host move scene :=
  ⟨hhost.1, hhost.2.1, hhost.2.2, hmove.1, hmove.2.1, hmove.2.2, hnotices,
    fun _ hmem => .inl (htokens hmem)⟩

theorem not_decided_of_mem_deliveries {r : Registry} {link : Link} {seat : Option Nat}
    {sender : UInt32} {traffic : Traffic} (id : Nat) (result : Except ProxyError OverlayConfig) :
    .decided id result ∉ r.deliveries link seat sender traffic := by
  rw [Registry.deliveries]
  cases traffic.stamp? sender with
  | none => simp
  | some stamped => simp

theorem not_decided_of_mem_forwarding {host : Host} {link : Link} {seat : Nat} {worker : Worker}
    {datagram : Bytes} (id : Nat) (result : Except ProxyError OverlayConfig) :
    .decided id result ∉ host.forwarding link seat worker datagram := by
  rw [forwarding, List.mem_flatMap]
  rintro ⟨traffic, -, hmem⟩
  exact not_decided_of_mem_deliveries id result hmem

theorem undisturbed_applyPresence (host : Host) (presence : ProxyPresence) :
    host.Undisturbed (.applyPresence presence) (host.applyPresence presence) := by
  rw [applyPresence]
  by_cases hpresent : presence.present = true
  · rw [if_pos hpresent]
    exact .ofSame ⟨rfl, rfl, rfl⟩ ⟨rfl, rfl, rfl⟩ (by simp) (List.Subset.refl _)
  · rw [if_neg hpresent, Scene.closeAll_eq]
    exact .ofSame ⟨rfl, rfl, rfl⟩ ⟨rfl, rfl, rfl⟩ (by simp) (List.filter_subset_self _)

theorem undisturbed_receive (host : Host) (endpoint : Endpoint) (datagram : Bytes) :
    host.Undisturbed (.receive endpoint datagram) (host.receive endpoint datagram).2 := by
  rcases host.receive_cases endpoint datagram with hdropped | ⟨_, _, _, _, _, hqueued⟩
  · rw [hdropped]
    exact .ofSame ⟨rfl, rfl, rfl⟩ ⟨rfl, rfl, rfl⟩ (by simp) (List.Subset.refl _)
  · rw [hqueued]
    exact .ofSame ⟨rfl, rfl, rfl⟩ ⟨rfl, rfl, rfl⟩ (by simp [queue]) (List.Subset.refl _)

theorem undisturbed_route (host : Host) (link : Link) (sender : UInt32) (traffic : Traffic) :
    host.Undisturbed (.route link sender traffic) (host.route link sender traffic) := by
  rw [route, Scene.route_eq]
  exact .ofSame ⟨rfl, rfl, rfl⟩ ⟨rfl, rfl, rfl⟩ not_decided_of_mem_deliveries
    (List.Subset.refl _)

theorem undisturbed_unregister (host : Host) (link : Link) (endpoint : Endpoint) :
    host.Undisturbed (.unregister link endpoint) (host.unregister link endpoint).2 := by
  rw [unregister]
  cases host.registry.seatAt? endpoint with
  | none => exact .ofSame ⟨rfl, rfl, rfl⟩ ⟨rfl, rfl, rfl⟩ (by simp) (List.Subset.refl _)
  | some seat =>
    dsimp only
    rw [Scene.expel_eq]
    exact .ofSame ⟨rfl, rfl, rfl⟩ ⟨rfl, rfl, rfl⟩ (by simp) (List.Subset.refl _)

theorem undisturbed_shutdown (host : Host) : host.Undisturbed .shutdown host.shutdown := by
  rw [shutdown, Scene.closeAll_eq]
  exact .ofSame ⟨rfl, rfl, rfl⟩ ⟨rfl, rfl, rfl⟩ (by simp) (List.nil_subset _)

theorem undisturbed_serve (host : Host) (now : Nat) (link : Link) (seat : Nat) :
    host.Undisturbed (.perform now link (.serve seat)) (host.serve link seat) := by
  have hturn := host.turn link seat
  generalize host.serve link seat = scene at hturn ⊢
  cases hturn with
  | idle => exact .ofSame ⟨rfl, rfl, rfl⟩ ⟨rfl, rfl, rfl⟩ (by simp) (List.Subset.refl _)
  | ended => exact .ofSame ⟨rfl, rfl, rfl⟩ ⟨rfl, rfl, rfl⟩ (by simp) (List.Subset.refl _)
  | read =>
    exact .ofSame ⟨rfl, rfl, rfl⟩ ⟨rfl, rfl, rfl⟩ not_decided_of_mem_forwarding
      (List.Subset.refl _)
  | lost =>
    exact .ofSame ⟨rfl, rfl, rfl⟩ ⟨rfl, rfl, rfl⟩ not_decided_of_mem_forwarding
      (List.Subset.refl _)
  | expelled =>
    refine .ofSame ⟨rfl, rfl, rfl⟩ ⟨rfl, rfl, rfl⟩ ?_ (List.Subset.refl _)
    simp [not_decided_of_mem_forwarding]

theorem hearing (host : Host) (move : Move) : host.Hearing move (host.move move) := by
  cases move with
  | addToken token =>
    refine .aside ⟨rfl, rfl, rfl, rfl, rfl, rfl, by simp [move, addToken], fun other _ => .inr ?_⟩
    intro applicant hmem
    exact List.mem_map.mpr ⟨applicant, hmem, rfl⟩
  | applyPresence presence => exact .aside (host.undisturbed_applyPresence presence)
  | apply now endpoint offer => exact .applied now endpoint offer
  | receive endpoint datagram => exact .aside (host.undisturbed_receive endpoint datagram)
  | route link sender traffic => exact .aside (host.undisturbed_route link sender traffic)
  | unregister link endpoint => exact .aside (host.undisturbed_unregister link endpoint)
  | shutdown => exact .aside host.undisturbed_shutdown
  | perform now link job =>
    cases job with
    | serve seat => exact .aside (host.undisturbed_serve now link seat)
    | dismiss seat =>
      exact .aside (.ofSame ⟨rfl, rfl, rfl⟩ ⟨rfl, rfl, rfl⟩ (by simp [move, perform, dismiss])
        (List.Subset.refl _))
    | consider id =>
      rcases host.consider_cases now link id with
        ⟨hsame, hlook⟩ | ⟨applicant, hfind, hclaim, hover, hscene⟩ |
          ⟨applicant, claim, hfind, hclaim, hscene⟩
      · rw [move, perform, hsame]
        exact .waitsOn hlook
      · obtain ⟨hmem, rfl⟩ := mem_of_find? hfind
        rw [move, perform, hscene]
        exact .turnedAway hmem hclaim hover
      · obtain ⟨hmem, rfl⟩ := mem_of_find? hfind
        rw [move, perform, hscene]
        exact .letIn hmem hclaim

/-- Whoever is let in hears the address or that the answer was lost, and nothing else. -/
theorem decided_of_mem_letIn {host : Host} {link : Link} {applicant : Applicant}
    {claim : Registry.Claim} {id : Nat} {result : Except ProxyError OverlayConfig}
    (hmem : .decided id result ∈ (host.letIn link applicant claim).notices) :
    id = applicant.id ∧ result ≠ .error .noMatchingToken := by
  simp only [letIn, List.mem_cons, List.mem_append, List.mem_map, reduceCtorEq, and_false,
    exists_false, Notice.decided.injEq, List.not_mem_nil, or_false, false_or] at hmem
  obtain ⟨rfl, rfl⟩ := hmem
  refine ⟨rfl, ?_⟩
  cases link (.peer applicant.endpoint) (.overlayConfig (assigned claim.token)) with
  | none => simp
  | some error => simp

/-- Who is turned away has just looked, at the end of its time or later, and found nothing. -/
theorem exists_applicant_of_turnedAway {host : Host} {move : Move} {id : Nat}
    (hmem : .decided id (.error .noMatchingToken) ∈ (host.move move).notices) :
    ∃ now link, move = .perform now link (.consider id) ∧
      ∃ applicant ∈ host.applicants, applicant.id = id ∧ applicant.deadline ≤ now ∧
        ∀ token ∈ host.registry.tokens,
          ¬ admits applicant.presented applicant.endpoint token = true := by
  have hhearing := host.hearing move
  generalize host.move move = scene at hhearing hmem
  cases hhearing with
  | aside h => exact absurd hmem (h.undecided _ _)
  | applied => simp [apply] at hmem
  | waitsOn => simp at hmem
  | @turnedAway now link applicant happlicant hclaim hover =>
    simp only [List.mem_singleton, Notice.decided.injEq, and_true] at hmem
    obtain rfl := hmem
    exact ⟨now, link, rfl, applicant, happlicant, rfl, hover, claim?_eq_none_iff.mp hclaim⟩
  | letIn => exact absurd rfl (decided_of_mem_letIn hmem).2

end Host

/-! ### The run -/

open Host (Move)

/-- When the applications made on the way began to wait, each under its number. -/
def starts (moves : List Move) : List Nat :=
  moves.filterMap Move.start?

theorem starts_concat (moves : List Move) (move : Move) :
    starts (moves ++ [move]) = starts moves ++ move.start?.toList :=
  filterMap_concat ..

/-- Someone with this number waits. -/
def Host.HasApplicant (host : Host) (id : Nat) : Prop :=
  ∃ applicant ∈ host.applicants, applicant.id = id

/-- Every application has a window of its own, and waits or was answered. -/
structure Heard (authWait : Nat) (moves : List Move) (c : Chronicle) : Prop where
  window : c.host.authWait = authWait
  numbered : Numbered (c.host.applicants.map (·.id)) c.host.applications
  starts : (starts moves).length = c.host.applications
  deadlines : ∀ applicant ∈ c.host.applicants, ∃ start,
    (Overlay.starts moves)[applicant.id]? = some start ∧ applicant.deadline = start + authWait
  answered : ∀ id < c.host.applications, c.host.HasApplicant id ∨
    (∃ token seat, .admitted id token seat ∈ c.notices) ∨
      .decided id (.error .noMatchingToken) ∈ c.notices

namespace Heard

variable {authWait : Nat} {moves : List Move} {c : Chronicle}

/-- Who is not dropped still waits, and who is has its answer. -/
theorem answered_of_drop (h : Heard authWait moves c) {applicant : Applicant}
    {notices : List Notice}
    (hanswer : (∃ token seat, .admitted applicant.id token seat ∈ notices) ∨
      .decided applicant.id (.error .noMatchingToken) ∈ notices) {id : Nat}
    (hid : id < c.host.applications) :
    (c.host.dropApplicant applicant.id).HasApplicant id ∨
      (∃ token seat, .admitted id token seat ∈ c.notices ++ notices) ∨
        .decided id (.error .noMatchingToken) ∈ c.notices ++ notices := by
  rcases h.answered id hid with ⟨waiting, hwaiting, rfl⟩ | ⟨token, seat, hadmitted⟩ | hrefused
  · by_cases hsame : waiting.id = applicant.id
    · rw [hsame]
      rcases hanswer with ⟨token, seat, hadmitted⟩ | hrefused
      · exact .inr (.inl ⟨token, seat, List.mem_append_right _ hadmitted⟩)
      · exact .inr (.inr (List.mem_append_right _ hrefused))
    · exact .inl ⟨waiting, Host.mem_applicants_dropApplicant.mpr ⟨hwaiting, hsame⟩, rfl⟩
  · exact .inr (.inl ⟨token, seat, List.mem_append_left _ hadmitted⟩)
  · exact .inr (.inr (List.mem_append_left _ hrefused))

/-- One of those who wait has its answer, and nothing else is new. -/
theorem drop (h : Heard authWait moves c) {move : Move} {scene : Scene} {applicant : Applicant}
    {ledger : Ledger}
    (hhost : scene.host.applicants = (c.host.dropApplicant applicant.id).applicants ∧
      scene.host.applications = c.host.applications ∧ scene.host.authWait = c.host.authWait)
    (hmove : move.start? = none)
    (hanswer : (∃ token seat, .admitted applicant.id token seat ∈ scene.notices) ∨
      .decided applicant.id (.error .noMatchingToken) ∈ scene.notices) :
    Heard authWait (moves ++ [move]) ⟨scene.host, c.notices ++ scene.notices, ledger⟩ := by
  obtain ⟨happlicants, happlications, hwait⟩ := hhost
  have hstarts : Overlay.starts (moves ++ [move]) = Overlay.starts moves := by
    rw [starts_concat, hmove]
    simp
  refine ⟨hwait.trans h.window, ?_, ?_, fun other hother => ?_, fun id hid => ?_⟩
  · show Numbered (scene.host.applicants.map (·.id)) scene.host.applications
    rw [happlicants, happlications]
    exact h.numbered.sublist (List.filter_sublist.map _)
  · rw [hstarts, h.starts]
    exact happlications.symm
  · rw [hstarts]
    rw [happlicants] at hother
    exact h.deadlines other (Host.mem_applicants_dropApplicant.mp hother).1
  · have hhas : scene.host.HasApplicant id ↔
        (c.host.dropApplicant applicant.id).HasApplicant id := by
      rw [Host.HasApplicant, happlicants, Host.HasApplicant]
    rw [hhas]
    exact h.answered_of_drop hanswer (happlications ▸ hid)

theorem next (h : Heard authWait moves c) (move : Move) :
    Heard authWait (moves ++ [move]) (c.next move) := by
  have hhearing := c.host.hearing move
  rw [Chronicle.next]
  generalize c.host.move move = scene at hhearing
  have hkept {id : Nat} (hid : id < c.host.applications)
      (hhas : c.host.HasApplicant id → scene.host.HasApplicant id) :
      scene.host.HasApplicant id ∨
        (∃ token seat, .admitted id token seat ∈ c.notices ++ scene.notices) ∨
          .decided id (.error .noMatchingToken) ∈ c.notices ++ scene.notices := by
    rcases h.answered id hid with hwaiting | ⟨token, seat, hadmitted⟩ | hrefused
    · exact .inl (hhas hwaiting)
    · exact .inr (.inl ⟨token, seat, List.mem_append_left _ hadmitted⟩)
    · exact .inr (.inr (List.mem_append_left _ hrefused))
  cases hhearing with
  | aside hquiet =>
    have hstarts : Overlay.starts (moves ++ [move]) = Overlay.starts moves := by
      rw [starts_concat, hquiet.start?]
      simp
    refine ⟨hquiet.authWait.trans h.window, ?_, ?_, ?_, fun id hid => ?_⟩
    · rw [hquiet.applicants, hquiet.applications]
      exact h.numbered
    · rw [hstarts, h.starts, hquiet.applications]
    · rw [hstarts, hquiet.applicants]
      exact h.deadlines
    · refine hkept (hquiet.applications ▸ hid) fun hwaiting => ?_
      rw [Host.HasApplicant, hquiet.applicants]
      exact hwaiting
  | applied now endpoint offer =>
    have hstarts : Overlay.starts (moves ++ [.apply now endpoint offer]) =
        Overlay.starts moves ++ [now] := starts_concat ..
    refine ⟨h.window, ?_, ?_, fun applicant hmem => ?_, fun id hid => ?_⟩
    · simp only [Host.apply, List.map_append, List.map_singleton]
      exact h.numbered.issue
    · simp [hstarts, h.starts, Host.apply]
    · rw [hstarts]
      rcases List.mem_append.mp hmem with hmem | hmem
      · obtain ⟨start, hstart, hdeadline⟩ := h.deadlines applicant hmem
        refine ⟨start, ?_, hdeadline⟩
        rw [List.getElem?_append_left (List.getElem?_eq_some_iff.mp hstart).1, hstart]
      · obtain rfl := List.mem_singleton.mp hmem
        refine ⟨now, ?_, by simp [h.window]⟩
        simp [← h.starts]
    · by_cases hold : id < c.host.applications
      · refine hkept hold ?_
        rintro ⟨waiting, hwaiting, rfl⟩
        exact ⟨waiting, List.mem_append_left _ hwaiting, rfl⟩
      · have hnew : id = c.host.applications := by
          simp only [Host.apply] at hid
          omega
        exact .inl ⟨_, List.mem_append_right _ (List.mem_singleton_self _), hnew.symm⟩
  | @waitsOn now link looking =>
    have hstarts : Overlay.starts (moves ++ [.perform now link (.consider looking)]) =
        Overlay.starts moves := (starts_concat ..).trans (List.append_nil _)
    refine ⟨h.window, h.numbered, ?_, ?_, fun id hid => hkept hid fun hwaiting => hwaiting⟩
    · rw [hstarts]
      exact h.starts
    · rw [hstarts]
      exact h.deadlines
  | turnedAway => exact h.drop ⟨rfl, rfl, rfl⟩ rfl (.inr (List.mem_singleton_self _))
  | letIn => exact h.drop ⟨rfl, rfl, rfl⟩ rfl (.inl ⟨_, _, List.mem_cons_self⟩)

end Heard

theorem heard_ofMoves (authWait : Nat) (moves : List Move) :
    Heard authWait moves (.ofMoves authWait moves) := by
  induction moves using List.reverseRecOn with
  | nil => exact ⟨rfl, .nil 0, rfl, fun _ => nofun, fun _ hid => absurd hid (Nat.not_lt_zero _)⟩
  | append_singleton moves move ih =>
    rw [Chronicle.ofMoves_concat]
    exact ih.next move

end LocalPlay.Overlay
