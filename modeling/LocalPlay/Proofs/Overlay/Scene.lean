import LocalPlay.Overlay.Host

/-!
# What is said and woken on the way

Closing seats, posting and routing leave the host of a scene alone: they add notices and jobs, and
the lemmas here say which. What a claim takes out of a registry and puts into it is here too. With
them a move of a host is read off its definition without following any recursion.
-/

namespace LocalPlay.Overlay

open Net Wire

namespace Scene

variable (s : Scene) (link : Link)

theorem closeAll_eq (why : Departure) (seats : List Seat) :
    s.closeAll why seats =
      { s with
        notices := s.notices ++ seats.map (.left · why)
        jobs := s.jobs ++ seats.map (.dismiss ·.id) } := by
  induction seats generalizing s with
  | nil => simp only [closeAll, List.foldl_nil, List.map_nil, List.append_nil]
  | cons seat seats ih =>
    have hrest := ih (s.close why seat)
    rw [closeAll] at hrest ⊢
    rw [List.foldl_cons, hrest]
    simp only [close, tell, wake, List.append_assoc, List.map_cons, List.singleton_append]

theorem foldl_post_eq (packet : Packet) (endpoints : List Endpoint) :
    endpoints.foldl (fun s endpoint => s.post link (.peer endpoint) packet) s =
      { s with notices := s.notices ++ endpoints.map fun endpoint =>
          .posted (.peer endpoint) packet (link (.peer endpoint) packet) } := by
  induction endpoints generalizing s with
  | nil => simp only [List.foldl_nil, List.map_nil, List.append_nil]
  | cons endpoint endpoints ih =>
    rw [List.foldl_cons, ih]
    simp only [post, tell, List.append_assoc, List.map_cons, List.singleton_append]

end Scene

/-- What routing says: that it was asked for, and every packet it handed to the link. -/
def Registry.deliveries (r : Registry) (link : Link) (seat : Option Nat) (sender : UInt32)
    (traffic : Traffic) : List Notice :=
  .routed seat sender traffic :: match traffic.stamp? sender with
    | none => []
    | some traffic => (r.destinations traffic.addressing.dest).map fun endpoint =>
        .posted (.peer endpoint) traffic.toPacket (link (.peer endpoint) traffic.toPacket)

namespace Scene

variable (s : Scene) (link : Link)

theorem route_eq (seat : Option Nat) (sender : UInt32) (traffic : Traffic) :
    s.route link seat sender traffic =
      { s with notices := s.notices ++ s.host.registry.deliveries link seat sender traffic } := by
  rw [route, Registry.deliveries]
  cases traffic.stamp? sender with
  | none => rfl
  | some stamped =>
    dsimp only
    rw [foldl_post_eq]
    simp only [tell, List.append_assoc, List.singleton_append]

theorem foldl_route_eq (seat : Option Nat) (sender : UInt32) (traffics : List Traffic) :
    traffics.foldl (fun s traffic => s.route link seat sender traffic) s =
      { s with notices := s.notices ++
          traffics.flatMap (s.host.registry.deliveries link seat sender) } := by
  induction traffics generalizing s with
  | nil => simp only [List.foldl_nil, List.flatMap_nil, List.append_nil]
  | cons traffic traffics ih =>
    rw [List.foldl_cons, ih, route_eq]
    simp only [List.append_assoc, List.flatMap_cons]

theorem expel_eq (why : Departure) (seat : Seat) :
    s.expel link why seat =
      { host := { s.host with registry := s.host.registry.removeSeat seat.id }
        notices := s.notices ++ [.left seat why,
          .posted .relay (.proxyState ⟨seat.virtualIp, false⟩)
            (link .relay (.proxyState ⟨seat.virtualIp, false⟩))]
        jobs := s.jobs ++ [.dismiss seat.id] } := by
  simp only [expel, setRegistry, close, post, tell, wake, List.append_assoc, List.singleton_append]

end Scene

/-! ### Claims -/

/-- The token is for this bearer: the same bytes, and a wildcard or his address. -/
theorem admits_iff {presented : Block 16} {endpoint : Endpoint} {token : ProxyToken} :
    admits presented endpoint token = true ↔
      token.token = presented ∧ (token.isWildcard = true ∨
        token.family = endpoint.ip.toField.2 ∧ token.physicalIp = endpoint.ip.toField.1) := by
  simp only [admits, Bool.and_eq_true, Bool.or_eq_true, beq_iff_eq]

/-- A claim takes the oldest token that admits, and the others keep their order. -/
theorem Registry.claim?_spec {r : Registry} {id : Nat} {endpoint : Endpoint} {presented : Block 16}
    {claim : Claim} (hclaim : r.claim? id endpoint presented = some claim) :
    claim.seat = ⟨id, endpoint, claim.token.virtualIp⟩ ∧
      claim.registry.seats = r.seats.eraseP (·.endpoint == endpoint) ++ [claim.seat] ∧
      admits presented endpoint claim.token = true ∧
      ∃ older newer, r.tokens = older ++ claim.token :: newer ∧
        claim.registry.tokens = older ++ newer ∧
        ∀ token ∈ older, ¬ admits presented endpoint token = true := by
  obtain ⟨token, hfind, rfl⟩ := Option.map_eq_some_iff.mp hclaim
  obtain ⟨hadmits, older, newer, htokens, holder⟩ := List.find?_eq_some_iff_append.mp hfind
  have hnone : ∀ token ∈ older, ¬ admits presented endpoint token = true := by
    intro token hmem
    rw [Bool.not_eq_true, ← Bool.not_eq_true']
    exact holder token hmem
  refine ⟨rfl, rfl, hadmits, older, newer, htokens, ?_, hnone⟩
  show r.tokens.eraseP (admits presented endpoint) = older ++ newer
  rw [htokens, List.eraseP_append_right _ hnone, List.eraseP_cons_of_pos hadmits]

theorem Registry.id_of_claim? {r : Registry} {id : Nat} {endpoint : Endpoint}
    {presented : Block 16} {claim : Claim} (hclaim : r.claim? id endpoint presented = some claim) :
    claim.seat.id = id := by
  rw [(claim?_spec hclaim).1]

/-- A claim fixes the overlay if nobody is seated, and else leaves it. -/
theorem Registry.overlay_of_claim? {r : Registry} {id : Nat} {endpoint : Endpoint}
    {presented : Block 16} {claim : Claim} (hclaim : r.claim? id endpoint presented = some claim) :
    claim.registry.overlay =
      if r.seats.isEmpty then some (assigned claim.token) else r.overlay := by
  obtain ⟨token, _, rfl⟩ := Option.map_eq_some_iff.mp hclaim
  rfl

theorem Registry.replaced_of_claim? {r : Registry} {id : Nat} {endpoint : Endpoint}
    {presented : Block 16} {claim : Claim} (hclaim : r.claim? id endpoint presented = some claim) :
    claim.replaced = r.seatAt? endpoint := by
  obtain ⟨token, _, rfl⟩ := Option.map_eq_some_iff.mp hclaim
  rfl

end LocalPlay.Overlay
