import LocalPlay.Proofs.Net.Field
import LocalPlay.Proofs.Overlay.Applicants
import LocalPlay.Proofs.Wire.RoundTrip

/-!
# Tokens for one address

The relay names the address that it expects the bearer of a token at. The bearer comes from a socket
of whatever family, so the two are compared in the field of a message, where addresses are in
canonical form. The one address that cannot be named is the unspecified one: its field is that of a
token for anyone.
-/

namespace LocalPlay.Overlay

open Net Wire

open Host (Move)

/-- The token has the address in its field. -/
def NamesAddress (token : ProxyToken) (ip : Ip) : Prop :=
  (token.physicalIp, token.family) = ip.toField

/-- An address that a token can be for. -/
def Specified (ip : Ip) : Prop :=
  ip.canonical ≠ .v4 .zero ∧ ip.canonical ≠ .v6 .zero

instance (ip : Ip) : Decidable (Specified ip) :=
  inferInstanceAs (Decidable (_ ∧ _))

section Named

variable {token : ProxyToken} {ip : Ip} (htoken : NamesAddress token ip)
include htoken

theorem NamesAddress.isWildcard_iff : token.isWildcard = true ↔ ¬ Specified ip := by
  have hfield : token.physicalIp = ip.toField.1 := congrArg Prod.fst htoken
  rw [ProxyToken.isWildcard, beq_iff_eq, hfield, Ip.toField_eq_zero_iff, Specified,
    not_and_or, not_ne_iff, not_ne_iff]

/-- A token for an address lets in whoever has its bytes and comes from there. -/
theorem NamesAddress.admits_iff (hip : Specified ip) {presented : Block 16} {endpoint : Endpoint} :
    admits presented endpoint token = true ↔
      token.token = presented ∧ endpoint.ip.canonical = ip.canonical := by
  have hwild : ¬ token.isWildcard = true := fun hwild => htoken.isWildcard_iff.mp hwild hip
  have hsame : token.family = endpoint.ip.toField.2 ∧ token.physicalIp = endpoint.ip.toField.1 ↔
      endpoint.ip.canonical = ip.canonical := by
    rw [← Ip.toField_eq_iff, ← htoken, Prod.ext_iff, and_comm, eq_comm, eq_comm (a := token.family)]
  rw [Overlay.admits_iff, or_iff_right hwild, hsame]

end Named

namespace Host

variable {authWait : Nat} {moves : List Move} {applicant : Applicant}

/-- What comes of the look of an applicant who waits. -/
theorem look_cases (happlicant : applicant ∈ (Chronicle.ofMoves authWait moves).host.applicants)
    (now : Nat) (link : Link) :
    let host := (Chronicle.ofMoves authWait moves).host
    let scene := host.move (.perform now link (.consider applicant.id))
    ((∀ token ∈ host.registry.tokens,
        ¬ admits applicant.presented applicant.endpoint token = true) ∧
      admissions scene.notices = []) ∨
    ∃ token seat, token ∈ host.registry.tokens ∧
      host.Granted link applicant.id applicant.endpoint applicant.presented token seat scene := by
  intro host scene
  have hfind : host.applicants.find? (·.id == applicant.id) = some applicant :=
    (heard_ofMoves authWait moves).numbered.find?_eq happlicant
  rcases host.consider_cases now link applicant.id with
    ⟨hscene, hlook⟩ | ⟨other, hother, hclaim, -, hscene⟩ | ⟨other, claim, hother, hclaim, hscene⟩
  · obtain ⟨hclaim, -⟩ := hlook applicant hfind
    refine .inl ⟨claim?_eq_none_iff.mp hclaim, ?_⟩
    show admissions (host.consider now link applicant.id).notices = []
    rw [hscene]
    rfl
  · obtain rfl := Option.some.inj (hfind.symm.trans hother)
    refine .inl ⟨claim?_eq_none_iff.mp hclaim, ?_⟩
    show admissions (host.consider now link applicant.id).notices = []
    rw [hscene]
    rfl
  · obtain rfl := Option.some.inj (hfind.symm.trans hother)
    obtain ⟨-, -, -, older, newer, htokens, -, -⟩ := Registry.claim?_spec hclaim
    refine .inr ⟨claim.token, claim.seat, ?_, ?_⟩
    · rw [htokens]
      exact List.mem_append_right _ List.mem_cons_self
    · show host.Granted link _ _ _ _ _ (host.consider now link applicant.id)
      rw [hscene]
      exact granted_letIn link hclaim

end Host

/-- Who is admitted on a token had its bytes and came from where it is for. -/
theorem admits_of_admitted {authWait : Nat} {moves : List Move} {id : Nat} {token : ProxyToken}
    {seat : Seat} (hadmitted : .admitted id token seat ∈ (Chronicle.ofMoves authWait moves).notices) :
    admits token.token seat.endpoint token = true := by
  obtain ⟨before, move, after, -, hmem⟩ := Chronicle.exists_move hadmitted
  have hadmission := mem_admissions.mpr hmem
  rcases (Chronicle.ofMoves authWait before).host.move_cases move with
    hquiet | ⟨_, link, applicant, claim, -, -, hclaim, hscene⟩
  · rw [hquiet.admissions] at hadmission
    exact nomatch hadmission
  · rw [hscene, Host.admissions_letIn, List.mem_singleton] at hadmission
    obtain ⟨rfl, rfl, rfl⟩ := hadmission
    obtain ⟨hseat, -, hadmits, -⟩ := Registry.claim?_spec hclaim
    rw [hseat]
    rwa [(Overlay.admits_iff.mp hadmits).1]

/-- A token names an address other than the unspecified ones. Nobody is ever admitted on it from an
address of another canonical form. While it is the only pending token with its bytes, an applicant
with these bytes is let in on it as soon as he looks if his address has the same canonical form,
whatever his port, and else he is let in on no token at all. What the token names is read back in
canonical form, for any address, and the token arrives as it was sent however its packet is cut. -/
theorem admitted_iff_at_address (authWait : Nat) (moves : List Move) {token : ProxyToken} {ip : Ip}
    (htoken : NamesAddress token ip) :
    let c := Chronicle.ofMoves authWait moves
    (Specified ip →
      (∀ id seat, .admitted id token seat ∈ c.notices →
        seat.endpoint.ip.canonical = ip.canonical) ∧
      (token ∈ c.host.registry.tokens →
        (∀ other ∈ c.host.registry.tokens, other.token = token.token → other = token) →
        ∀ applicant ∈ c.host.applicants, applicant.presented = token.token → ∀ now link,
          let scene := c.host.move (.perform now link (.consider applicant.id))
          (applicant.endpoint.ip.canonical = ip.canonical → ∃ seat,
            c.host.Granted link applicant.id applicant.endpoint token.token token seat scene) ∧
          (applicant.endpoint.ip.canonical ≠ ip.canonical → admissions scene.notices = []))) ∧
    Ip.ofField? token.physicalIp token.family = some ip.canonical ∧
    ∃ bytes, (Packet.proxyToken token).encode = .ok bytes ∧
      ∀ pieces : List Bytes, pieces.flatten = bytes →
        (Reassembly.empty.feedAll pieces).frames.map (·.packet) = [.proxyToken token] := by
  intro c
  have hsize : (Packet.proxyToken token).payload.length = 40 :=
    ProxyToken.lawful_layout.length_encode token
  have harrives := (Packet.proxyToken token).exists_arrival (by rw [hsize]; decide)
  refine ⟨fun hip => ⟨fun id seat hadmitted => ?_, ?_⟩, ?_, harrives⟩
  · exact ((htoken.admits_iff hip).mp (admits_of_admitted hadmitted)).2
  · intro hpending hsole applicant happlicant hpresented now link scene
    have hadmits : admits applicant.presented applicant.endpoint token = true ↔
        applicant.endpoint.ip.canonical = ip.canonical := by
      rw [htoken.admits_iff hip, and_iff_right hpresented.symm]
    rcases Host.look_cases happlicant now link with ⟨hnone, hadmissions⟩ |
        ⟨other, seat, hother, hgranted⟩
    · exact ⟨fun hsame => absurd (hadmits.mpr hsame) (hnone token hpending), fun _ => hadmissions⟩
    · -- There is no other token with these bytes.
      obtain rfl := hsole other hother (hgranted.bytes.trans hpresented)
      have hsame : applicant.endpoint.ip.canonical = ip.canonical :=
        hadmits.mp (Overlay.admits_iff.mpr ⟨hgranted.bytes, hgranted.address⟩)
      exact ⟨fun _ => ⟨seat, hpresented ▸ hgranted⟩, fun hother => absurd hsame hother⟩
  · have hread := ip.ofField?_toField
    rwa [← htoken] at hread

/-- A token for 192.0.2.4, with one applicant from that address in IPv6 and one from elsewhere. -/
theorem admitted_at_mapped_address :
    let ip : Ip := .v4 ⟨[192, 0, 2, 4], rfl⟩
    let mapped : Ip := .v6 ⟨[0, 0, 0, 0, 0, 0, 0, 0, 0, 0, 0xFF, 0xFF, 192, 0, 2, 4], rfl⟩
    let elsewhere : Ip := .v6 ⟨[0x20, 1, 0xD, 0xB8, 0, 0, 0, 0, 0, 0, 0, 0, 0, 0, 0, 4], rfl⟩
    let token : ProxyToken := ⟨1, .zero, ip.toField.1, ip.toField.2⟩
    let offer : ProxyOffer := { ip := .zero, family := .v4, port := 0, token := .zero }
    let host := (Chronicle.ofMoves 1000 [.apply 0 { ip := mapped, port := 40004 } offer,
      .apply 0 { ip := elsewhere, port := 40004 } offer, .addToken token]).host
    let link : Link := fun _ _ => none
    NamesAddress token ip ∧ Specified ip ∧ token ∈ host.registry.tokens ∧
      (∃ seat, host.Granted link 0 { ip := mapped, port := 40004 } .zero token seat
        (host.move (.perform 20 link (.consider 0)))) ∧
      admissions (host.move (.perform 20 link (.consider 1))).notices = [] ∧
      Ip.ofField? token.physicalIp token.family = some mapped.canonical := by
  intro ip mapped elsewhere token offer host link
  have htoken : NamesAddress token ip := rfl
  have hip : Specified ip := by decide
  obtain ⟨hlooks, hread, -⟩ := admitted_iff_at_address 1000 [.apply 0 { ip := mapped, port := 40004 }
    offer, .apply 0 { ip := elsewhere, port := 40004 } offer, .addToken token] htoken
  have hpending : token ∈ host.registry.tokens := by decide
  have hlooks := (hlooks hip).2 hpending (by decide)
  have hsame := (hlooks ⟨0, { ip := mapped, port := 40004 }, .zero, 1000⟩ (by decide) rfl 20 link).1
  have hother :=
    (hlooks ⟨1, { ip := elsewhere, port := 40004 }, .zero, 1000⟩ (by decide) rfl 20 link).2
  exact ⟨htoken, hip, hpending, hsame (by decide), hother (by decide), hread⟩

end LocalPlay.Overlay
