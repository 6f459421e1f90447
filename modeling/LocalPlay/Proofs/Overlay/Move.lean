import LocalPlay.Proofs.Overlay.Turn

/-!
# What a host can do

A host moves by a call or by a job, and whoever runs it may choose any of them at any time: waiting
applicants and workers are all in the host, so a run of it is just a list of moves. One kind of move
gives a seat away, an applicant's look at the tokens that finds one; what it leaves behind is
`letIn`, to the last notice. All other moves are `WithoutGrant`: tokens come and go by calls alone,
seats are only given up, the overlay stays, and an applicant is only added by its application.
`move_cases` says that there is nothing else: of tokens, seats and applicants nothing more is ever
read off the definitions of calls and jobs.
-/

namespace LocalPlay.Overlay

open Net Wire

/-- Who a notice admits, on which token, to which seat. -/
def Notice.admission? : Notice → Option (Nat × ProxyToken × Seat)
  | admitted applicant token seat => some (applicant, token, seat)
  | _ => none

def admissions (notices : List Notice) : List (Nat × ProxyToken × Seat) :=
  notices.filterMap Notice.admission?

theorem admissions_append (notices more : List Notice) :
    admissions (notices ++ more) = admissions notices ++ admissions more :=
  List.filterMap_append

theorem mem_admissions {notices : List Notice} {applicant : Nat} {token : ProxyToken} {seat : Seat} :
    (applicant, token, seat) ∈ admissions notices ↔ .admitted applicant token seat ∈ notices := by
  rw [admissions, List.mem_filterMap]
  constructor
  · rintro ⟨notice, hmem, hnotice⟩
    cases notice with
    | admitted =>
      obtain ⟨rfl, rfl, rfl⟩ := Option.some.inj hnotice
      exact hmem
    | _ => exact nomatch hnotice
  · exact fun hmem => ⟨_, hmem, rfl⟩

theorem admissions_eq_nil {notices : List Notice}
    (hnotices : ∀ notice ∈ notices, notice.admission? = none) : admissions notices = [] :=
  List.filterMap_eq_nil_iff.mpr hnotices

theorem admission?_of_mem_deliveries {r : Registry} {link : Link} {seat : Option Nat}
    {sender : UInt32} {traffic : Traffic} {notice : Notice}
    (hmem : notice ∈ r.deliveries link seat sender traffic) : notice.admission? = none := by
  rw [Registry.deliveries, List.mem_cons] at hmem
  rcases hmem with rfl | hmem
  · rfl
  · cases hstamp : traffic.stamp? sender with
    | none =>
      simp [hstamp] at hmem
    | some stamped =>
      rw [hstamp] at hmem
      obtain ⟨endpoint, _, rfl⟩ := List.mem_map.mp hmem
      rfl

namespace Host

/-- A call, or a job that gets its turn, with the clock and the link it finds. -/
inductive Move where
  | addToken (token : ProxyToken)
  | applyPresence (presence : ProxyPresence)
  | apply (now : Nat) (endpoint : Endpoint) (offer : ProxyOffer)
  | receive (endpoint : Endpoint) (datagram : Bytes)
  | route (link : Link) (sender : UInt32) (traffic : Traffic)
  | unregister (link : Link) (endpoint : Endpoint)
  | shutdown
  | perform (now : Nat) (link : Link) (job : Job)

def move (host : Host) : Move → Scene
  | .addToken token => host.addToken token
  | .applyPresence presence => host.applyPresence presence
  | .apply now endpoint offer => host.apply now endpoint offer
  | .receive endpoint datagram => (host.receive endpoint datagram).2
  | .route link sender traffic => host.route link sender traffic
  | .unregister link endpoint => (host.unregister link endpoint).2
  | .shutdown => host.shutdown
  | .perform now link job => host.perform now link job

namespace Move

/-- The token a move registers. -/
def token? : Move → Option ProxyToken
  | addToken token => some token
  | _ => none

/-- The application a move makes. -/
def application? : Move → Option (Endpoint × Block 16)
  | apply _ endpoint offer => some (endpoint, offer.token)
  | _ => none

/-- What becomes of the pending tokens when nobody takes one. -/
def retoken (tokens : List ProxyToken) : Move → List ProxyToken
  | addToken token => tokens ++ [token]
  | applyPresence presence =>
    if presence.present then tokens else tokens.filter (·.virtualIp ≠ presence.ip)
  | shutdown => []
  | _ => tokens

end Move

/-- What there is after an applicant is let in. -/
def letIn (host : Host) (link : Link) (applicant : Applicant) (claim : Registry.Claim) : Scene :=
  let target := Target.peer applicant.endpoint
  let answer := Packet.overlayConfig (assigned claim.token)
  let result := match link target answer with
    | none => .ok (assigned claim.token)
    | some error => .error (.linkDown error)
  { host := { host.dropApplicant applicant.id with
      registry := claim.registry
      workers := host.workers ++ [{ seat := claim.seat }]
      grants := host.grants + 1 }
    notices := .admitted applicant.id claim.token claim.seat ::
      (claim.replaced.toList.map (.left · .replaced) ++
        [.posted target answer (link target answer), .decided applicant.id result])
    jobs := claim.replaced.toList.map (.dismiss ·.id) }

theorem admissions_letIn (host : Host) (link : Link) (applicant : Applicant)
    (claim : Registry.Claim) :
    admissions (host.letIn link applicant claim).notices =
      [(applicant.id, claim.token, claim.seat)] := by
  have hreplaced : admissions (claim.replaced.toList.map (.left · .replaced)) = [] := by
    refine admissions_eq_nil fun notice hmem => ?_
    obtain ⟨seat, _, rfl⟩ := List.mem_map.mp hmem
    rfl
  show _ :: admissions (_ ++ _) = _
  rw [admissions_append, hreplaced]
  rfl

theorem mem_applicants_dropApplicant {host : Host} {id : Nat} {applicant : Applicant} :
    applicant ∈ (host.dropApplicant id).applicants ↔ applicant ∈ host.applicants ∧
      applicant.id ≠ id := by
  rw [dropApplicant, List.mem_filter, decide_eq_true_iff]

theorem mem_of_find? {host : Host} {id : Nat} {applicant : Applicant}
    (hfind : host.applicants.find? (·.id == id) = some applicant) :
    applicant ∈ host.applicants ∧ applicant.id = id := by
  exact ⟨List.mem_of_find?_eq_some hfind, key_of_find? hfind⟩

/-- An applicant finds a token, or its time is over, or it goes on waiting. -/
theorem consider_cases (host : Host) (now : Nat) (link : Link) (id : Nat) :
    (host.consider now link id = { host } ∧
      ∀ applicant, host.applicants.find? (·.id == id) = some applicant →
        host.registry.claim? host.grants applicant.endpoint applicant.presented = none ∧
          now < applicant.deadline) ∨
    (∃ applicant, host.applicants.find? (·.id == id) = some applicant ∧
      host.registry.claim? host.grants applicant.endpoint applicant.presented = none ∧
      applicant.deadline ≤ now ∧
      host.consider now link id =
        { host := host.dropApplicant id, notices := [.decided id (.error .noMatchingToken)] }) ∨
    ∃ applicant claim, host.applicants.find? (·.id == id) = some applicant ∧
      host.registry.claim? host.grants applicant.endpoint applicant.presented = some claim ∧
      host.consider now link id = host.letIn link applicant claim := by
  cases hfind : host.applicants.find? (·.id == id) with
  | none =>
    refine .inl ⟨?_, fun _ => nofun⟩
    simp only [consider, hfind]
  | some applicant =>
    have hid := (mem_of_find? hfind).2
    cases hclaim : host.registry.claim? host.grants applicant.endpoint applicant.presented with
    | some claim =>
      refine .inr (.inr ⟨applicant, claim, rfl, hclaim, ?_⟩)
      cases hlink : link (.peer applicant.endpoint) (.overlayConfig (assigned claim.token))
      all_goals
        simp only [consider, hfind, hclaim, letIn, Scene.closeAll_eq, Scene.post, Scene.tell, hid,
          hlink, List.append_assoc, List.cons_append, List.nil_append]
    | none =>
      by_cases hover : applicant.deadline ≤ now
      · refine .inr (.inl ⟨applicant, rfl, hclaim, hover, ?_⟩)
        simp only [consider, hfind, hclaim, if_pos hover]
      · refine .inl ⟨?_, ?_⟩
        · simp only [consider, hfind, hclaim, if_neg hover]
        · rintro _ ⟨⟩
          exact ⟨hclaim, Nat.not_le.mp hover⟩

/-- The move gave nobody a seat. -/
structure WithoutGrant (host : Host) (move : Move) (scene : Scene) : Prop where
  admissions : admissions scene.notices = []
  grants : scene.host.grants = host.grants
  tokens : scene.host.registry.tokens = move.retoken host.registry.tokens
  seats : scene.host.registry.seats.Sublist host.registry.seats
  overlay : scene.host.registry.overlay = host.registry.overlay
  applications : scene.host.applications = host.applications + move.application?.toList.length
  applicants : ∀ applicant ∈ scene.host.applicants, applicant ∈ host.applicants ∨
    applicant.id = host.applications ∧
      move.application? = some (applicant.endpoint, applicant.presented)

/-- What leaves tokens and applicants alone. -/
theorem WithoutGrant.ofSame {host : Host} {move : Move} {scene : Scene}
    (happlication : move.application? = none)
    (htokens : scene.host.registry.tokens = move.retoken host.registry.tokens)
    (hseats : scene.host.registry.seats.Sublist host.registry.seats)
    (hoverlay : scene.host.registry.overlay = host.registry.overlay)
    (hhost : scene.host.grants = host.grants ∧ scene.host.applications = host.applications ∧
      scene.host.applicants = host.applicants)
    (hnotices : ∀ notice ∈ scene.notices, notice.admission? = none) :
    WithoutGrant host move scene where
  admissions := admissions_eq_nil hnotices
  grants := hhost.1
  tokens := htokens
  seats := hseats
  overlay := hoverlay
  applications := by rw [happlication, hhost.2.1]; rfl
  applicants := fun applicant hmem => .inl (hhost.2.2 ▸ hmem)

/-- What leaves the registry alone as well, and says nothing. -/
theorem WithoutGrant.ofSilent {host : Host} {move : Move} {scene : Scene}
    (happlication : move.application? = none)
    (hretoken : move.retoken host.registry.tokens = host.registry.tokens)
    (hhost : scene.host.registry = host.registry ∧ scene.host.grants = host.grants ∧
      scene.host.applications = host.applications ∧ scene.host.applicants = host.applicants)
    (hnotices : scene.notices = []) : WithoutGrant host move scene := by
  obtain ⟨hregistry, hgrants, happlications, happlicants⟩ := hhost
  refine .ofSame happlication ?_ ?_ ?_ ⟨hgrants, happlications, happlicants⟩ fun notice hmem => ?_
  · rw [hregistry, hretoken]
  · simp only [hregistry, List.Sublist.refl]
  · rw [hregistry]
  · simp [hnotices] at hmem

theorem withoutGrant_applyPresence (host : Host) (presence : ProxyPresence) :
    host.WithoutGrant (.applyPresence presence) (host.applyPresence presence) := by
  rw [applyPresence]
  by_cases hpresent : presence.present = true
  · rw [if_pos hpresent]
    exact .ofSilent rfl (if_pos hpresent) ⟨rfl, rfl, rfl, rfl⟩ rfl
  · rw [if_neg hpresent, Scene.closeAll_eq]
    refine .ofSame rfl ?_ List.filter_sublist rfl ⟨rfl, rfl, rfl⟩ fun notice hmem => ?_
    · rw [Move.retoken, if_neg hpresent]
      refine List.filter_congr fun token _ => ?_
      rw [decide_not]
      rfl
    · rcases List.mem_append.mp hmem with hmem | hmem
      all_goals
        obtain ⟨_, _, rfl⟩ := List.mem_map.mp hmem
        rfl

theorem withoutGrant_receive (host : Host) (endpoint : Endpoint) (datagram : Bytes) :
    host.WithoutGrant (.receive endpoint datagram) (host.receive endpoint datagram).2 := by
  rcases host.receive_cases endpoint datagram with hdropped | ⟨_, _, _, _, _, hqueued⟩
  · rw [hdropped]
    exact .ofSilent rfl rfl ⟨rfl, rfl, rfl, rfl⟩ rfl
  · rw [hqueued]
    refine .ofSame rfl rfl (.refl _) rfl ⟨rfl, rfl, rfl⟩ fun notice hmem => ?_
    rw [List.mem_singleton.mp hmem]
    rfl

theorem withoutGrant_route (host : Host) (link : Link) (sender : UInt32) (traffic : Traffic) :
    host.WithoutGrant (.route link sender traffic) (host.route link sender traffic) := by
  rw [route, Scene.route_eq]
  exact .ofSame rfl rfl (.refl _) rfl ⟨rfl, rfl, rfl⟩
    (fun _ hmem => admission?_of_mem_deliveries hmem)

theorem admission?_of_mem_expel {seat : Seat} {why : Departure} {target : Target} {packet : Packet}
    {refusal : Option SendError} {notice : Notice}
    (hmem : notice ∈ [.left seat why, .posted target packet refusal]) :
    notice.admission? = none := by
  rw [List.mem_cons, List.mem_singleton] at hmem
  rcases hmem with rfl | rfl
  · rfl
  · rfl

theorem withoutGrant_unregister (host : Host) (link : Link) (endpoint : Endpoint) :
    host.WithoutGrant (.unregister link endpoint) (host.unregister link endpoint).2 := by
  rw [unregister]
  cases host.registry.seatAt? endpoint with
  | none => exact .ofSilent rfl rfl ⟨rfl, rfl, rfl, rfl⟩ rfl
  | some seat =>
    dsimp only
    rw [Scene.expel_eq]
    exact .ofSame rfl rfl List.eraseP_sublist rfl ⟨rfl, rfl, rfl⟩
      (fun _ hmem => admission?_of_mem_expel hmem)

theorem withoutGrant_shutdown (host : Host) : host.WithoutGrant .shutdown host.shutdown := by
  rw [shutdown, Scene.closeAll_eq]
  refine .ofSame rfl rfl (List.nil_sublist _) rfl ⟨rfl, rfl, rfl⟩ fun notice hmem => ?_
  rcases List.mem_append.mp hmem with hmem | hmem
  all_goals
    obtain ⟨_, _, rfl⟩ := List.mem_map.mp hmem
    rfl

theorem withoutGrant_serve (host : Host) (now : Nat) (link : Link) (id : Nat) :
    host.WithoutGrant (.perform now link (.serve id)) (host.serve link id) := by
  have hforwarding (worker : Worker) (datagram : Bytes) :
      ∀ notice ∈ host.forwarding link id worker datagram, notice.admission? = none := by
    intro notice hmem
    obtain ⟨_, _, hmem⟩ := List.mem_flatMap.mp hmem
    exact admission?_of_mem_deliveries hmem
  have hturn := host.turn link id
  generalize host.serve link id = scene at hturn ⊢
  cases hturn with
  | idle => exact .ofSilent rfl rfl ⟨rfl, rfl, rfl, rfl⟩ rfl
  | ended => exact .ofSilent rfl rfl ⟨rfl, rfl, rfl, rfl⟩ rfl
  | read => exact .ofSame rfl rfl (.refl _) rfl ⟨rfl, rfl, rfl⟩ (hforwarding _ _)
  | lost => exact .ofSame rfl rfl (.refl _) rfl ⟨rfl, rfl, rfl⟩ (hforwarding _ _)
  | expelled =>
    refine .ofSame rfl rfl List.erase_sublist rfl ⟨rfl, rfl, rfl⟩ fun notice hmem => ?_
    rcases List.mem_append.mp hmem with hmem | hmem
    · exact hforwarding _ _ notice hmem
    · exact admission?_of_mem_expel hmem

/-- A move gives no seat away, or it is the look of an applicant at the tokens that finds one. -/
theorem move_cases (host : Host) (move : Move) :
    host.WithoutGrant move (host.move move) ∨
    ∃ now link applicant claim, move = .perform now link (.consider applicant.id) ∧
      applicant ∈ host.applicants ∧
      host.registry.claim? host.grants applicant.endpoint applicant.presented = some claim ∧
      host.move move = host.letIn link applicant claim := by
  cases move with
  | addToken token =>
    refine .inl (.ofSame rfl rfl (.refl _) rfl ⟨rfl, rfl, rfl⟩ fun notice hmem => ?_)
    exact absurd hmem List.not_mem_nil
  | applyPresence presence => exact .inl (host.withoutGrant_applyPresence presence)
  | receive endpoint datagram => exact .inl (host.withoutGrant_receive endpoint datagram)
  | route link sender traffic => exact .inl (host.withoutGrant_route link sender traffic)
  | unregister link endpoint => exact .inl (host.withoutGrant_unregister link endpoint)
  | shutdown => exact .inl host.withoutGrant_shutdown
  | apply now endpoint offer =>
    refine .inl ⟨rfl, rfl, rfl, .refl _, rfl, rfl, fun applicant hmem => ?_⟩
    rcases List.mem_append.mp hmem with hmem | hmem
    · exact .inl hmem
    · obtain rfl := List.mem_singleton.mp hmem
      exact .inr ⟨rfl, rfl⟩
  | perform now link job =>
    cases job with
    | serve id => exact .inl (host.withoutGrant_serve now link id)
    | dismiss id => exact .inl (.ofSilent rfl rfl ⟨rfl, rfl, rfl, rfl⟩ rfl)
    | consider id =>
      rcases host.consider_cases now link id with
        ⟨hsame, _⟩ | ⟨_, _, _, _, hover⟩ | ⟨applicant, claim, hfind, hclaim, hscene⟩
      · left
        rw [move, perform, hsame]
        exact .ofSilent rfl rfl ⟨rfl, rfl, rfl, rfl⟩ rfl
      · left
        rw [move, perform, hover]
        refine ⟨rfl, rfl, rfl, .refl _, rfl, rfl, fun applicant hmem => .inl ?_⟩
        exact (mem_applicants_dropApplicant.mp hmem).1
      · obtain ⟨hmem, rfl⟩ := mem_of_find? hfind
        exact .inr ⟨now, link, applicant, claim, rfl, hmem, hclaim, hscene⟩

/-- An applicant from `endpoint` was let in on `token`, the oldest one that is for him. The others
keep their order, and the seat and the answer have the token's virtual address. -/
structure Granted (host : Host) (link : Link) (applicant : Nat) (endpoint : Endpoint)
    (presented : Block 16) (token : ProxyToken) (seat : Seat) (scene : Scene) : Prop where
  sole : admissions scene.notices = [(applicant, token, seat)]
  bytes : token.token = presented
  address : token.isWildcard = true ∨
    token.family = endpoint.ip.toField.2 ∧ token.physicalIp = endpoint.ip.toField.1
  oldest : ∃ older newer, host.registry.tokens = older ++ token :: newer ∧
    scene.host.registry.tokens = older ++ newer ∧
    ∀ other ∈ older, ¬ admits presented endpoint other = true
  seated : seat ∈ scene.host.registry.seats ∧ seat.endpoint = endpoint ∧
    seat.virtualIp = token.virtualIp
  answered : .posted (.peer endpoint) (.overlayConfig ⟨token.virtualIp, subnetMask⟩)
    (link (.peer endpoint) (.overlayConfig ⟨token.virtualIp, subnetMask⟩)) ∈ scene.notices
  decided : .decided applicant
    (match link (.peer endpoint) (.overlayConfig ⟨token.virtualIp, subnetMask⟩) with
      | none => .ok ⟨token.virtualIp, subnetMask⟩
      | some error => .error (.linkDown error)) ∈ scene.notices

theorem granted_letIn {host : Host} (link : Link) {applicant : Applicant} {claim : Registry.Claim}
    (hclaim : host.registry.claim? host.grants applicant.endpoint applicant.presented =
      some claim) :
    host.Granted link applicant.id applicant.endpoint applicant.presented claim.token claim.seat
      (host.letIn link applicant claim) := by
  obtain ⟨hseat, hseats, hlets, oldest⟩ := Registry.claim?_spec hclaim
  obtain ⟨hbytes, haddress⟩ := admits_iff.mp hlets
  refine ⟨host.admissions_letIn link applicant claim, hbytes, haddress, oldest, ⟨?_, ?_, ?_⟩, ?_, ?_⟩
  · show claim.seat ∈ claim.registry.seats
    rw [hseats]
    exact List.mem_append_right _ (List.mem_singleton_self _)
  · rw [hseat]
  · rw [hseat]
  · exact List.mem_cons_of_mem _ (List.mem_append_right _ List.mem_cons_self)
  · exact List.mem_cons_of_mem _
      (List.mem_append_right _ (List.mem_cons_of_mem _ (List.mem_singleton_self _)))

/-! ### What a host has, it was given -/

theorem mem_of_mem_retoken {move : Move} {tokens : List ProxyToken} {token : ProxyToken}
    (hmem : token ∈ move.retoken tokens) : token ∈ tokens ∨ move.token? = some token := by
  cases move with
  | addToken added =>
    rcases List.mem_append.mp hmem with hmem | hmem
    · exact .inl hmem
    · exact .inr (congrArg some (List.mem_singleton.mp hmem).symm)
  | applyPresence presence =>
    rw [Move.retoken] at hmem
    split at hmem
    · exact .inl hmem
    · exact .inl (List.mem_filter.mp hmem).1
  | shutdown => exact nomatch hmem
  | _ => exact .inl hmem

theorem token_origin {host : Host} {move : Move} {token : ProxyToken}
    (hmem : token ∈ (host.move move).host.registry.tokens) :
    token ∈ host.registry.tokens ∨ move.token? = some token := by
  rcases host.move_cases move with hquiet | ⟨_, link, _, claim, _, _, hclaim, hscene⟩
  · rw [hquiet.tokens] at hmem
    exact mem_of_mem_retoken hmem
  · obtain ⟨_, _, _, _, _, htokens, hrest, _⟩ := Registry.claim?_spec hclaim
    have hmem : token ∈ claim.registry.tokens := by
      rw [hscene] at hmem
      exact hmem
    rw [hrest] at hmem
    rw [htokens]
    rcases List.mem_append.mp hmem with hmem | hmem
    · exact .inl (List.mem_append_left _ hmem)
    · exact .inl (List.mem_append_right _ (List.mem_cons_of_mem _ hmem))

theorem seat_origin {host : Host} {move : Move} {seat : Seat}
    (hmem : seat ∈ (host.move move).host.registry.seats) :
    seat ∈ host.registry.seats ∨
      ∃ applicant token, .admitted applicant token seat ∈ (host.move move).notices := by
  rcases host.move_cases move with hquiet | ⟨_, link, applicant, claim, _, _, hclaim, hscene⟩
  · exact .inl (hquiet.seats.subset hmem)
  · obtain ⟨_, hseats, _⟩ := Registry.claim?_spec hclaim
    have hmem : seat ∈ claim.registry.seats := by
      rw [hscene] at hmem
      exact hmem
    rw [hseats] at hmem
    rcases List.mem_append.mp hmem with hmem | hmem
    · exact .inl (List.eraseP_subset hmem)
    · obtain rfl := List.mem_singleton.mp hmem
      refine .inr ⟨applicant.id, claim.token, ?_⟩
      rw [hscene]
      exact List.mem_cons_self

/-- An admission is the only one of its move, takes a pending token, and is seen in the seats. -/
theorem admission_origin {host : Host} {move : Move} {applicant : Nat} {token : ProxyToken}
    {seat : Seat} (hmem : .admitted applicant token seat ∈ (host.move move).notices) :
    admissions (host.move move).notices = [(applicant, token, seat)] ∧
      token ∈ host.registry.tokens ∧ seat ∈ (host.move move).host.registry.seats := by
  have hadmitted := mem_admissions.mpr hmem
  rcases host.move_cases move with hquiet | ⟨_, link, _, claim, _, _, hclaim, hscene⟩
  · rw [hquiet.admissions] at hadmitted
    exact nomatch hadmitted
  · rw [hscene] at hadmitted ⊢
    rw [admissions_letIn] at hadmitted ⊢
    obtain ⟨rfl, rfl, rfl⟩ := List.mem_singleton.mp hadmitted
    have hgranted := granted_letIn link hclaim
    obtain ⟨older, newer, htokens, _⟩ := hgranted.oldest
    refine ⟨rfl, ?_, hgranted.seated.1⟩
    rw [htokens]
    exact List.mem_append_right _ List.mem_cons_self

end Host

end LocalPlay.Overlay
