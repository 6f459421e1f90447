import LocalPlay.Proofs.Overlay.Ledger
import Mathlib.Data.List.Nodup

/-!
# Who is seated, and in which subnet

Seats are given away one at a time, and whoever sits down gives up the seat that its endpoint had
before, so no endpoint ever has two. The overlay has one writer as well: an admission while nobody
is seated, an `Opened` table. It is never unset, so it is there as long as anyone is.

A table can be left by all and opened again, and then the overlay is written a second time. It lasts
exactly in the runs in which all who open the table do so under one virtual address.
-/

namespace LocalPlay.Overlay

open Net Wire

/-- No endpoint has two seats. -/
def Registry.Apart (r : Registry) : Prop :=
  (r.seats.map (·.endpoint)).Nodup

theorem Registry.apart_claim {r : Registry} (h : r.Apart) {id : Nat} {endpoint : Endpoint}
    {presented : Block 16} {claim : Claim} (hclaim : r.claim? id endpoint presented = some claim) :
    claim.registry.Apart := by
  obtain ⟨hseat, hseats, -⟩ := claim?_spec hclaim
  have hrest : (r.seats.eraseP (·.endpoint == endpoint)).map (·.endpoint) =
      (r.seats.map (·.endpoint)).erase endpoint := by
    rw [List.erase_eq_eraseP', List.eraseP_map]
    rfl
  rw [Apart, hseats, List.map_append, hrest, List.map_singleton, hseat, ← List.concat_eq_append]
  exact List.Nodup.concat h.not_mem_erase (List.Nodup.erase endpoint h)

theorem Host.apart_move {host : Host} (h : host.registry.Apart) (move : Move) :
    (host.move move).host.registry.Apart := by
  rcases host.move_cases move with hquiet | ⟨_, link, _, claim, _, _, hclaim, hscene⟩
  · exact h.sublist (hquiet.seats.map _)
  · rw [hscene]
    exact Registry.apart_claim h hclaim

/-! ### The writer of the overlay -/

open Host (Move)

/-- A move admits nobody and leaves the overlay, or admits somebody while others are seated and
leaves it, or admits somebody while nobody is seated and writes it. -/
theorem Host.overlay_cases (host : Host) (move : Move) :
    (host.move move).host.registry.overlay = host.registry.overlay ∧
      (host.registry.seats = [] → admissions (host.move move).notices = []) ∨
    ∃ applicant token seat, host.registry.seats = [] ∧
      admissions (host.move move).notices = [(applicant, token, seat)] ∧
      (host.move move).host.registry.overlay = some ⟨seat.virtualIp, subnetMask⟩ := by
  rcases host.move_cases move with hquiet | ⟨_, link, applicant, claim, _, _, hclaim, hscene⟩
  · exact .inl ⟨hquiet.overlay, fun _ => hquiet.admissions⟩
  · have hoverlay : (host.move move).host.registry.overlay =
        if host.registry.seats.isEmpty then some (assigned claim.token)
        else host.registry.overlay := by
      rw [hscene]
      exact Registry.overlay_of_claim? hclaim
    obtain ⟨hseat, -⟩ := Registry.claim?_spec hclaim
    by_cases hempty : host.registry.seats = []
    · refine .inr ⟨applicant.id, claim.token, claim.seat, hempty, ?_, ?_⟩
      · rw [hscene, admissions_letIn]
      · rw [hoverlay, if_pos (List.isEmpty_iff.mpr hempty), hseat]
        rfl
    · rw [if_neg (hempty ∘ List.isEmpty_iff.mp)] at hoverlay
      exact .inl ⟨hoverlay, fun h => absurd h hempty⟩

/-- Somebody was given this seat while nobody else was seated. -/
def Opened (authWait : Nat) (moves : List Move) (seat : Seat) : Prop :=
  ∃ before move after applicant token, moves = before ++ move :: after ∧
    (Chronicle.ofMoves authWait before).host.registry.seats = [] ∧
    .admitted applicant token seat ∈ ((Chronicle.ofMoves authWait before).host.move move).notices

section Run

variable {authWait : Nat} {moves : List Move}

theorem Opened.mono {early : List Move} {seat : Seat} (h : Opened authWait early seat)
    (hearly : early <+: moves) : Opened authWait moves seat := by
  obtain ⟨more, rfl⟩ := hearly
  obtain ⟨before, move, after, applicant, token, rfl, hempty, hadmitted⟩ := h
  refine ⟨before, move, after ++ more, applicant, token, ?_, hempty, hadmitted⟩
  rw [List.append_assoc, List.cons_append]

theorem Opened.exists_admitted {seat : Seat} (h : Opened authWait moves seat) :
    ∃ applicant token, .admitted applicant token seat ∈
      (Chronicle.ofMoves authWait moves).notices := by
  obtain ⟨before, move, after, applicant, token, hmoves, -, hadmitted⟩ := h
  exact ⟨applicant, token, Chronicle.mem_notices hmoves hadmitted⟩

/-- Just after the table was opened the overlay is that of the opening. -/
theorem Opened.exists_overlay {seat : Seat} (h : Opened authWait moves seat) :
    ∃ early, early <+: moves ∧
      (Chronicle.ofMoves authWait early).host.registry.overlay =
        some ⟨seat.virtualIp, subnetMask⟩ := by
  obtain ⟨before, move, after, applicant, token, rfl, hempty, hadmitted⟩ := h
  refine ⟨before ++ [move], ⟨after, by simp⟩, ?_⟩
  have hmem := mem_admissions.mpr hadmitted
  rw [Chronicle.host_concat]
  rcases (Chronicle.ofMoves authWait before).host.overlay_cases move with
    ⟨-, hsilent⟩ | ⟨_, _, other, -, hadmissions, hoverlay⟩
  · rw [hsilent hempty] at hmem
    exact nomatch hmem
  · rw [hadmissions, List.mem_singleton] at hmem
    obtain ⟨-, -, rfl⟩ := hmem
    exact hoverlay

theorem admissions_concat (move : Move) :
    admissions (Chronicle.ofMoves authWait (moves ++ [move])).notices =
      admissions (Chronicle.ofMoves authWait moves).notices ++
        admissions ((Chronicle.ofMoves authWait moves).host.move move).notices := by
  rw [Chronicle.notices_concat, admissions_append]

/-- Before anyone is admitted nobody is seated. -/
theorem seats_eq_nil_of_admissions
    (hnone : admissions (Chronicle.ofMoves authWait moves).notices = []) :
    (Chronicle.ofMoves authWait moves).host.registry.seats = [] := by
  apply List.eq_nil_iff_forall_not_mem.mpr
  intro seat hmem
  obtain ⟨applicant, token, hadmitted⟩ := Chronicle.exists_admitted hmem
  have hadmission := mem_admissions.mpr hadmitted
  simp [hnone] at hadmission

/-- The first to be admitted opened the table. -/
theorem opened_of_first {applicant : Nat} {token : ProxyToken} {seat : Seat}
    (hfirst : (admissions (Chronicle.ofMoves authWait moves).notices).head? =
      some (applicant, token, seat)) : Opened authWait moves seat := by
  induction moves using List.reverseRecOn with
  | nil => exact nomatch hfirst
  | append_singleton moves move ih =>
    rw [admissions_concat, List.head?_append] at hfirst
    cases hearly : (admissions (Chronicle.ofMoves authWait moves).notices).head? with
    | some first =>
      rw [hearly, Option.some_or] at hfirst
      exact (ih (hearly.trans hfirst)).mono (List.prefix_append _ _)
    | none =>
      rw [hearly, Option.none_or] at hfirst
      refine ⟨moves, move, [], applicant, token, rfl, ?_, ?_⟩
      · exact seats_eq_nil_of_admissions (List.head?_eq_none_iff.mp hearly)
      · exact mem_admissions.mp (List.mem_of_head? hfirst)

/-- The overlay is that of some opening, and is there as soon as anyone was admitted. -/
structure Traced (authWait : Nat) (moves : List Move) : Prop where
  opened : ∀ config, (Chronicle.ofMoves authWait moves).host.registry.overlay = some config →
    ∃ seat, Opened authWait moves seat ∧ config = ⟨seat.virtualIp, subnetMask⟩
  fixed : admissions (Chronicle.ofMoves authWait moves).notices ≠ [] →
    (Chronicle.ofMoves authWait moves).host.registry.overlay ≠ none

theorem Traced.next (h : Traced authWait moves) (move : Move) :
    Traced authWait (moves ++ [move]) := by
  have hhost := Chronicle.host_concat authWait moves move
  rcases (Chronicle.ofMoves authWait moves).host.overlay_cases move with
    ⟨hoverlay, hsilent⟩ | ⟨applicant, token, seat, hempty, hadmitted, hoverlay⟩
  · rw [← hhost] at hoverlay
    refine ⟨fun config hconfig => ?_, fun hsome => ?_⟩
    · obtain ⟨seat, hopened, hseat⟩ := h.opened config (hoverlay ▸ hconfig)
      exact ⟨seat, hopened.mono (List.prefix_append _ _), hseat⟩
    · rw [hoverlay]
      apply h.fixed
      intro hnone
      -- The first to be admitted finds nobody seated.
      rw [admissions_concat, hnone, hsilent (seats_eq_nil_of_admissions hnone)] at hsome
      exact hsome rfl
  · rw [← hhost] at hoverlay
    refine ⟨fun config hconfig => ⟨seat, ?_, ?_⟩, fun _ => ?_⟩
    · refine ⟨moves, move, [], applicant, token, rfl, hempty, mem_admissions.mp ?_⟩
      rw [hadmitted]
      exact List.mem_singleton_self _
    · exact Option.some.inj (hconfig.symm.trans hoverlay)
    · rw [hoverlay]
      exact Option.some_ne_none _

theorem traced_ofMoves (authWait : Nat) (moves : List Move) : Traced authWait moves := by
  induction moves using List.reverseRecOn with
  | nil => exact ⟨fun _ => nofun, fun h => absurd rfl h⟩
  | append_singleton moves move ih => exact ih.next move

theorem apart_ofMoves (authWait : Nat) (moves : List Move) :
    (Chronicle.ofMoves authWait moves).host.registry.Apart := by
  induction moves using List.reverseRecOn with
  | nil => exact .nil
  | append_singleton moves move ih =>
    rw [Chronicle.host_concat]
    exact Host.apart_move ih move

end Run

/-- Whatever moves a host makes, no two seats belong to one endpoint; while anybody is seated there
is an overlay, and its mask is 255.255.0.0; and its address is that of a seat that was given away
while nobody else was seated. -/
theorem seated_under_opening (authWait : Nat) (moves : List Move) :
    let registry := (Chronicle.ofMoves authWait moves).host.registry
    (registry.seats.map (·.endpoint)).Nodup ∧
    (registry.seats ≠ [] → ∃ config, registry.overlay = some config ∧ config.mask = 0xFFFF0000) ∧
    ∀ config, registry.overlay = some config →
      ∃ seat, Opened authWait moves seat ∧ config.ip = seat.virtualIp := by
  intro registry
  have htraced := traced_ofMoves authWait moves
  refine ⟨apart_ofMoves authWait moves, fun hseated => ?_, fun config hconfig => ?_⟩
  · have hadmitted : admissions (Chronicle.ofMoves authWait moves).notices ≠ [] :=
      fun hnone => hseated (seats_eq_nil_of_admissions hnone)
    obtain ⟨config, hconfig⟩ := Option.ne_none_iff_exists'.mp (htraced.fixed hadmitted)
    obtain ⟨seat, -, rfl⟩ := htraced.opened config hconfig
    exact ⟨_, hconfig, rfl⟩
  · obtain ⟨seat, hopened, rfl⟩ := htraced.opened config hconfig
    exact ⟨seat, hopened, rfl⟩

/-! ### How long an overlay lasts -/

theorem Registry.destinations_of_broadcast {r : Registry} {config : OverlayConfig}
    (hconfig : r.overlay = some config) {dest : UInt32}
    (hdest : dest = broadcastSentinel ∨ dest = config.broadcast) :
    r.destinations dest = r.seats.map (·.endpoint) := by
  have hall : some (if dest = broadcastSentinel then config.broadcast else dest) =
      some config.broadcast := by
    rcases hdest with rfl | rfl
    · rw [if_pos rfl]
    · rw [ite_self]
  simp only [destinations, hconfig, Option.map_some, Option.getD_some]
  rw [if_pos hall]

/-- The overlay of the first who was ever admitted. -/
def firstOverlay (notices : List Notice) : Option OverlayConfig :=
  (admissions notices).head?.map fun (_, _, seat) => ⟨seat.virtualIp, subnetMask⟩

theorem firstOverlay_mono {notices more : List Notice} (hmore : notices <+: more)
    {config : OverlayConfig} (hfirst : firstOverlay notices = some config) :
    firstOverlay more = some config := by
  obtain ⟨rest, rfl⟩ := hmore
  obtain ⟨admission, hhead, hconfig⟩ := Option.map_eq_some_iff.mp hfirst
  rw [firstOverlay, admissions_append, List.head?_append, hhead, Option.some_or, Option.map_some,
    hconfig]

/-- Once there is an overlay it is never another one. -/
def OverlayLasts (authWait : Nat) (moves : List Move) : Prop :=
  ∀ early late, early <+: late → late <+: moves → ∀ config,
    (Chronicle.ofMoves authWait early).host.registry.overlay = some config →
      (Chronicle.ofMoves authWait late).host.registry.overlay = some config

/-- All who opened the table did so under the same virtual address. -/
def OpenedAlike (authWait : Nat) (moves : List Move) : Prop :=
  ∀ seat other, Opened authWait moves seat → Opened authWait moves other →
    seat.virtualIp = other.virtualIp

section Run

variable {authWait : Nat} {moves : List Move}

theorem overlay_eq_none_iff :
    (Chronicle.ofMoves authWait moves).host.registry.overlay = none ↔
      admissions (Chronicle.ofMoves authWait moves).notices = [] := by
  have htraced := traced_ofMoves authWait moves
  constructor
  · intro hnone
    by_contra hadmitted
    exact htraced.fixed hadmitted hnone
  · intro hnone
    by_contra hsome
    obtain ⟨config, hconfig⟩ := Option.ne_none_iff_exists'.mp hsome
    obtain ⟨seat, hopened, -⟩ := htraced.opened config hconfig
    obtain ⟨applicant, token, hadmitted⟩ := hopened.exists_admitted
    have hmem := mem_admissions.mpr hadmitted
    simp [hnone] at hmem

/-- All overlays on the way are the same. -/
theorem OpenedAlike.overlay_eq (h : OpenedAlike authWait moves) {early late : List Move}
    (hearly : early <+: moves) (hlate : late <+: moves) {config other : OverlayConfig}
    (hconfig : (Chronicle.ofMoves authWait early).host.registry.overlay = some config)
    (hother : (Chronicle.ofMoves authWait late).host.registry.overlay = some other) :
    config = other := by
  obtain ⟨seat, hseat, rfl⟩ := (traced_ofMoves authWait early).opened config hconfig
  obtain ⟨next, hnext, rfl⟩ := (traced_ofMoves authWait late).opened other hother
  rw [h seat next (hseat.mono hearly) (hnext.mono hlate)]

theorem OpenedAlike.overlay_eq_first (h : OpenedAlike authWait moves) {moment : List Move}
    (hmoment : moment <+: moves) :
    (Chronicle.ofMoves authWait moment).host.registry.overlay =
      firstOverlay (Chronicle.ofMoves authWait moment).notices := by
  cases hfirst : (admissions (Chronicle.ofMoves authWait moment).notices).head? with
  | none =>
    rw [firstOverlay, hfirst]
    exact overlay_eq_none_iff.mpr (List.head?_eq_none_iff.mp hfirst)
  | some admission =>
    obtain ⟨applicant, token, seat⟩ := admission
    obtain ⟨early, hearly, hoverlay⟩ := (opened_of_first hfirst).exists_overlay
    have hadmitted : admissions (Chronicle.ofMoves authWait moment).notices ≠ [] := by
      intro hnone
      simp [hnone] at hfirst
    obtain ⟨config, hconfig⟩ :=
      Option.ne_none_iff_exists'.mp (overlay_eq_none_iff.not.mpr hadmitted)
    rw [firstOverlay, hfirst, hconfig,
      h.overlay_eq hmoment (hearly.trans hmoment) hconfig hoverlay]
    rfl

theorem OpenedAlike.lasts (h : OpenedAlike authWait moves) : OverlayLasts authWait moves := by
  intro early late hearly hlate config hconfig
  rw [h.overlay_eq_first (hearly.trans hlate)] at hconfig
  rw [h.overlay_eq_first hlate]
  exact firstOverlay_mono (Chronicle.notices_isPrefix hearly) hconfig

theorem OverlayLasts.openedAlike (h : OverlayLasts authWait moves) : OpenedAlike authWait moves := by
  intro seat other hseat hother
  obtain ⟨early, hearly, hoverlay⟩ := hseat.exists_overlay
  obtain ⟨late, hlate, hafter⟩ := hother.exists_overlay
  rcases List.prefix_or_prefix_of_prefix hearly hlate with hle | hle
  · rw [h early late hle hlate _ hoverlay] at hafter
    exact congrArg OverlayConfig.ip (Option.some.inj hafter)
  · rw [h late early hle hearly _ hafter] at hoverlay
    exact congrArg OverlayConfig.ip (Option.some.inj hoverlay).symm

end Run

/-- There is an overlay from the first admission on. That it is never replaced holds of exactly the
runs in which all who open the table do so under the same virtual address; and in the same runs it
is always that of the first who was ever admitted, so that all traffic to the broadcast address of
his subnet goes to everyone. -/
theorem overlay_lasts_iff (authWait : Nat) (moves : List Move) :
    let registry (moment : List Move) := (Chronicle.ofMoves authWait moment).host.registry
    let first (moment : List Move) := firstOverlay (Chronicle.ofMoves authWait moment).notices
    ((registry moves).overlay = none ↔
      admissions (Chronicle.ofMoves authWait moves).notices = []) ∧
    (OverlayLasts authWait moves ↔ OpenedAlike authWait moves) ∧
    ((∀ moment, moment <+: moves → (registry moment).overlay = first moment ∧
        ∀ config, first moment = some config →
          ∀ dest, dest = broadcastSentinel ∨ dest = config.broadcast →
            (registry moment).destinations dest = (registry moment).seats.map (·.endpoint)) ↔
      OpenedAlike authWait moves) := by
  intro registry first
  refine ⟨overlay_eq_none_iff, ⟨OverlayLasts.openedAlike, OpenedAlike.lasts⟩, fun h => ?_, ?_⟩
  · refine OverlayLasts.openedAlike fun early late hearly hlate config hconfig => ?_
    have hfirst : first early = some config := (h early (hearly.trans hlate)).1 ▸ hconfig
    rw [(h late hlate).1]
    exact firstOverlay_mono (Chronicle.notices_isPrefix hearly) hfirst
  · intro h moment hmoment
    have hfirst := h.overlay_eq_first hmoment
    refine ⟨hfirst, fun config hconfig dest hdest => ?_⟩
    exact Registry.destinations_of_broadcast (hfirst.trans hconfig) hdest

/-- The only peer leaves, and the next one sits down under an address of another subnet. -/
theorem overlay_replaced :
    let token (ip : UInt32) : ProxyToken := ⟨ip, .zero, .zero, .v4⟩
    let endpoint (port : UInt16) : Endpoint := { ip := .v4 .zero, port }
    let offer : ProxyOffer := { ip := .zero, family := .v4, port := 0, token := .zero }
    let link : Link := fun _ _ => none
    let early : List Move := [.addToken (token 0x0A720001), .apply 0 (endpoint 7) offer,
      .perform 0 link (.consider 0)]
    let late := early ++ [.unregister link (endpoint 7), .addToken (token 0x0AC80009),
      .apply 0 (endpoint 8) offer, .perform 0 link (.consider 1)]
    let registry (moves : List Move) := (Chronicle.ofMoves 1000 moves).host.registry
    (registry early).overlay = some ⟨0x0A720001, subnetMask⟩ ∧
      (registry late).overlay = some ⟨0x0AC80009, subnetMask⟩ ∧
      ¬ OverlayLasts 1000 late := by
  intro token endpoint offer link early late registry
  have hearly : (registry early).overlay = some ⟨0x0A720001, subnetMask⟩ := by decide
  have hlate : (registry late).overlay = some ⟨0x0AC80009, subnetMask⟩ := by decide
  refine ⟨hearly, hlate, fun hlasts => ?_⟩
  have hkept := hlasts early late (List.prefix_append _ _) List.prefix_rfl _ hearly
  rw [hlate] at hkept
  exact absurd hkept (by decide)

end LocalPlay.Overlay
