import LocalPlay.Proofs.Overlay.Ledger
import Mathlib.Data.List.Nodup
import Mathlib.Data.List.Perm.Subperm

/-!
# One holder for each virtual address

A virtual address is taken from the time a token is registered under it until the token is dropped
or the seat it granted is left: an admission hands the address over from the token to the seat.
Nothing else takes an address, and those who wait for a token have none, however many they are. So
if the relay registers no token under an address that is still taken, none is ever taken twice.
-/

namespace LocalPlay.Overlay

open Net Wire

open Host (Move)

theorem count_map {α : Type} (address : α → UInt32) (entries : List α) (ip : UInt32) :
    (entries.map address).count ip = (entries.filter (address · == ip)).length := by
  simp [List.count_eq_countP, List.countP_eq_length_filter, List.filter_map, Function.comp_def]

/-- The virtual addresses of pending tokens and of seats. -/
def Registry.taken (r : Registry) : List UInt32 :=
  r.tokens.map (·.virtualIp) ++ r.seats.map (·.virtualIp)

/-- The token's address goes to the seat, and the seat that is replaced gives up its own. -/
theorem Registry.taken_claim {r : Registry} {id : Nat} {endpoint : Endpoint}
    {presented : Block 16} {claim : Claim} (hclaim : r.claim? id endpoint presented = some claim) :
    claim.registry.taken.Subperm r.taken := by
  obtain ⟨hseat, hseats, -, older, newer, htokens, hrest, -⟩ := claim?_spec hclaim
  let kept := (r.seats.eraseP (·.endpoint == endpoint)).map (·.virtualIp)
  have hkept : kept.Sublist (r.seats.map (·.virtualIp)) := List.eraseP_sublist.map _
  refine ⟨r.tokens.map (·.virtualIp) ++ kept, ?_, hkept.append_left _⟩
  rw [taken, hrest, hseats, htokens, hseat]
  simp only [List.map_append, List.map_cons, List.map_nil]
  have hfront : (older.map (·.virtualIp) ++ claim.token.virtualIp ::
      (newer.map (·.virtualIp) ++ kept)).Perm (claim.token.virtualIp ::
        (older.map (·.virtualIp) ++ (newer.map (·.virtualIp) ++ kept))) := List.perm_middle
  have hback := hfront.trans (List.perm_append_singleton _ _).symm
  simpa [kept] using hback

theorem Host.Move.retoken_sublist {move : Move} (hmove : move.token? = none)
    (tokens : List ProxyToken) : (move.retoken tokens).Sublist tokens := by
  cases move with
  | addToken token => exact nomatch hmove
  | applyPresence presence =>
    rw [retoken]
    split
    · exact .refl _
    · exact List.filter_sublist
  | shutdown => exact List.nil_sublist _
  | _ => exact .refl _

namespace Host

/-- Only the registration of a token takes an address. -/
theorem taken_move (host : Host) {move : Move} (hmove : move.token? = none) :
    (host.move move).host.registry.taken.Subperm host.registry.taken := by
  rcases host.move_cases move with hquiet | ⟨_, link, _, claim, _, _, hclaim, hscene⟩
  · rw [Registry.taken, hquiet.tokens]
    exact (((move.retoken_sublist hmove _).map _).append (hquiet.seats.map _)).subperm
  · rw [hscene]
    exact Registry.taken_claim hclaim

theorem taken_addToken (host : Host) (token : ProxyToken) :
    (host.move (.addToken token)).host.registry.taken.Perm
      (token.virtualIp :: host.registry.taken) := by
  show ((host.registry.tokens ++ [token]).map (·.virtualIp) ++ _).Perm _
  rw [List.map_append, List.map_singleton, List.append_assoc]
  exact List.perm_middle

theorem nodup_taken_move {host : Host} (h : host.registry.taken.Nodup) {move : Move}
    (hnew : ∀ token, move = .addToken token → token.virtualIp ∉ host.registry.taken) :
    (host.move move).host.registry.taken.Nodup := by
  by_cases hmove : ∃ token, move = .addToken token
  · obtain ⟨token, rfl⟩ := hmove
    rw [(host.taken_addToken token).nodup_iff]
    exact List.nodup_cons.mpr ⟨hnew token rfl, h⟩
  · have hnone : move.token? = none := by
      cases move with
      | addToken token => exact absurd ⟨token, rfl⟩ hmove
      | _ => rfl
    obtain ⟨kept, hperm, hsub⟩ := host.taken_move hnone
    exact hperm.nodup_iff.mp (h.sublist hsub)

/-! ### What leaves with an address -/

theorem applyPresence_absent (host : Host) (ip : UInt32) :
    host.applyPresence ⟨ip, false⟩ =
      { host := { host with registry :=
          { host.registry with
            tokens := host.registry.tokens.filter (·.virtualIp != ip)
            seats := host.registry.seats.filter (·.virtualIp != ip) } }
        notices := (host.registry.tokens.filter (·.virtualIp == ip)).map .tokenDropped ++
          (host.registry.seats.filter (·.virtualIp == ip)).map (.left · .announced)
        jobs := (host.registry.seats.filter (·.virtualIp == ip)).map (.dismiss ·.id) } := by
  rw [applyPresence, if_neg Bool.false_ne_true, Scene.closeAll_eq, List.nil_append]
  rfl

theorem taken_absent (host : Host) (ip : UInt32) :
    (host.applyPresence ⟨ip, false⟩).host.registry.taken =
      host.registry.taken.filter (· != ip) := by
  rw [applyPresence_absent, Registry.taken, Registry.taken, List.filter_append, List.filter_map,
    List.filter_map]
  rfl

theorem length_notices_absent (host : Host) (ip : UInt32) :
    (host.applyPresence ⟨ip, false⟩).notices.length = host.registry.taken.count ip := by
  rw [applyPresence_absent, Registry.taken, List.count_append, count_map, count_map]
  simp

end Host

/-- Traffic to an address that is no broadcast address goes to the oldest seat that has it. -/
theorem Registry.destinations_of_unicast {r : Registry} {dest : UInt32}
    (hsentinel : dest ≠ broadcastSentinel) (hdest : some dest ≠ r.overlay.map (·.broadcast)) :
    r.destinations dest = ((r.seats.find? (·.virtualIp == dest)).map (·.endpoint)).toList := by
  simp only [destinations, if_neg hsentinel, if_neg hdest]

/-- The relay registers no token under an address that is still taken. -/
def Disciplined (authWait : Nat) (moves : List Move) : Prop :=
  ∀ before move after, moves = before ++ move :: after → ∀ token, move = .addToken token →
    token.virtualIp ∉ (Chronicle.ofMoves authWait before).host.registry.taken

theorem disciplined_concat {authWait : Nat} {moves : List Move} {move : Move} :
    Disciplined authWait (moves ++ [move]) ↔ Disciplined authWait moves ∧
      ∀ token, move = .addToken token →
        token.virtualIp ∉ (Chronicle.ofMoves authWait moves).host.registry.taken :=
  forall_split_concat

theorem Disciplined.nodup_taken {authWait : Nat} {moves : List Move}
    (h : Disciplined authWait moves) :
    (Chronicle.ofMoves authWait moves).host.registry.taken.Nodup := by
  induction moves using List.reverseRecOn with
  | nil => exact .nil
  | append_singleton moves move ih =>
    obtain ⟨hmoves, hlast⟩ := disciplined_concat.mp h
    rw [Chronicle.host_concat]
    exact Host.nodup_taken_move (ih hmoves) hlast

/-- If the relay keeps its discipline, the virtual addresses of pending tokens and of seats are all
different, whatever moves the host makes. So an address is held by one seat at most, which traffic
to it goes to, and a notice that it left drops one token or one seat at most. -/
theorem taken_once {authWait : Nat} {moves : List Move} (hmoves : Disciplined authWait moves) :
    let host := (Chronicle.ofMoves authWait moves).host
    let registry := host.registry
    (registry.tokens.map (·.virtualIp) ++ registry.seats.map (·.virtualIp)).Nodup ∧
    (∀ dest, (registry.seats.filter (·.virtualIp == dest)).length ≤ 1 ∧
      (dest ≠ broadcastSentinel → some dest ≠ registry.overlay.map (·.broadcast) →
        registry.destinations dest =
          (registry.seats.filter (·.virtualIp == dest)).map (·.endpoint))) ∧
    ∀ ip, (host.applyPresence ⟨ip, false⟩).notices.length ≤ 1 ∧
      (host.applyPresence ⟨ip, false⟩).host.registry.taken = registry.taken.erase ip := by
  intro host registry
  have htaken : registry.taken.Nodup := hmoves.nodup_taken
  refine ⟨htaken, fun dest => ?_, fun ip => ⟨?_, ?_⟩⟩
  · have hseats : (registry.seats.map (·.virtualIp)).Nodup := htaken.of_append_right
    have hholders : (registry.seats.filter (·.virtualIp == dest)).length ≤ 1 := by
      have hcount := List.nodup_iff_count_le_one.mp hseats dest
      rwa [count_map] at hcount
    refine ⟨hholders, fun hsentinel hdest => ?_⟩
    rw [Registry.destinations_of_unicast hsentinel hdest, ← List.head?_filter]
    cases hfilter : registry.seats.filter (·.virtualIp == dest) with
    | nil => rfl
    | cons seat others =>
      rw [hfilter, List.length_cons] at hholders
      obtain rfl : others = [] := List.length_eq_zero_iff.mp (by omega)
      rfl
  · rw [host.length_notices_absent]
    exact List.nodup_iff_count_le_one.mp htaken ip
  · rw [host.taken_absent, htaken.erase_eq_filter]

/-- A peer sits down again under another address, and its first address is registered once more. -/
theorem taken_once_of_rejoin :
    let token (ip : UInt32) : ProxyToken := ⟨ip, .zero, .zero, .v4⟩
    let endpoint : Endpoint := { ip := .v4 .zero, port := 7 }
    let offer : ProxyOffer := { ip := .zero, family := .v4, port := 0, token := .zero }
    let link : Link := fun _ _ => none
    let moves : List Move := [.addToken (token 1), .addToken (token 2), .apply 0 endpoint offer,
      .perform 0 link (.consider 0), .apply 0 endpoint offer, .perform 0 link (.consider 1),
      .addToken (token 1)]
    let host := (Chronicle.ofMoves 1000 moves).host
    host.registry.taken = [1, 2] ∧ host.registry.destinations 2 = [endpoint] ∧
      (host.applyPresence ⟨2, false⟩).host.registry.taken = [1] := by
  intro token endpoint offer link moves host
  have hmoves : Disciplined 1000 moves := by
    have hnil : Disciplined 1000 [] := by
      intro before move after hsplit
      simp at hsplit
    show Disciplined 1000 ([] ++ [_] ++ [_] ++ [_] ++ [_] ++ [_] ++ [_] ++ [_])
    simp only [disciplined_concat]
    refine ⟨⟨⟨⟨⟨⟨⟨hnil, ?_⟩, ?_⟩, fun _ => nofun⟩, fun _ => nofun⟩, fun _ => nofun⟩,
      fun _ => nofun⟩, ?_⟩
    all_goals
      rintro _ ⟨⟩
      decide
  obtain ⟨_, hholders, hgone⟩ := taken_once hmoves
  have htaken : host.registry.taken = [1, 2] := by decide
  refine ⟨htaken, ?_, ?_⟩
  · rw [(hholders 2).2 (by decide) (by decide)]
    decide
  · rw [(hgone 2).2]
    decide

end LocalPlay.Overlay
