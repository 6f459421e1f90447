import LocalPlay.Net.Interface
import LocalPlay.Proofs.Net.Field

/-!
# Addresses that are offered to others

Of the local addresses that are not loopback the first IPv4 address is offered, or the first of all
if none is IPv4. The choice looks at addresses as they are listed, and a mapped address is neither
IPv4 nor loopback then, whatever it stands for. Others read it in its canonical form. So what they
read can be a loopback address after all, and this is exactly so if no IPv4 address can be offered
and a mapped loopback address comes first: `isLoopback_canonical_of_pick_iff`.
-/

namespace LocalPlay.Net

namespace Ip

/-- An IPv6 address that stands for a loopback address of IPv4. -/
def isMappedLoopback (ip : Ip) : Bool :=
  ip.mapped?.any fun octets => (v4 octets).isLoopback

theorem canonical_of_isV4 {ip : Ip} (hv4 : ip.isV4 = true) : ip.canonical = ip := by
  cases ip with
  | v4 octets => rfl
  | v6 octets => cases hv4

theorem not_isV4_of_mapped? {ip : Ip} {octets : Block 4} (hmapped : ip.mapped? = some octets) :
    ip.isV4 = false := by
  cases ip with
  | v4 plain => cases hmapped
  | v6 long => rfl

/-- A mapped address does not look like the loopback address of IPv6. -/
theorem isLoopback_of_mapped? {ip : Ip} {octets : Block 4} (hmapped : ip.mapped? = some octets) :
    ip.isLoopback = false := by
  cases ip with
  | v4 plain => cases hmapped
  | v6 long =>
    rw [Bool.eq_false_iff]
    intro hloopback
    have hbytes : long.bytes = List.replicate 15 0 ++ [1] := by simpa [isLoopback] using hloopback
    simp [mapped?, hbytes, mappedStart] at hmapped

theorem isLoopback_canonical (ip : Ip) :
    ip.canonical.isLoopback = (ip.isLoopback || ip.isMappedLoopback) := by
  cases hmapped : ip.mapped? with
  | none => simp [canonical, isMappedLoopback, hmapped]
  | some octets => simp [canonical, isMappedLoopback, hmapped, isLoopback_of_mapped? hmapped]

end Ip

variable {addresses : List Ip} {ip : Ip}

/-- No IPv4 address can be offered, and a mapped loopback address is the first that can. -/
def HidesLoopback (addresses : List Ip) : Prop :=
  (∀ other ∈ addresses, other.isV4 = true → other.isLoopback = true) ∧
    ∃ first, addresses.find? (!·.isLoopback) = some first ∧ first.isMappedLoopback = true

theorem pickLanAddress_eq (addresses : List Ip) :
    pickLanAddress addresses = (addresses.find? fun ip => !ip.isLoopback && ip.isV4).or
      (addresses.find? (!·.isLoopback)) := by
  have hboth : (addresses.filter (!·.isLoopback)).find? (·.isV4) =
      addresses.find? fun ip => !ip.isLoopback && ip.isV4 := by
    simp [List.find?_filter]
  rw [pickLanAddress, hboth, List.head?_filter]
  cases addresses.find? fun ip => !ip.isLoopback && ip.isV4 with
  | none => rfl
  | some ip => rfl

theorem pickLanAddress_spec (hpick : pickLanAddress addresses = some ip) :
    ip ∈ addresses ∧ ip.isLoopback = false ∧
      (∀ other ∈ addresses, other.isLoopback = false → other.isV4 = true → ip.isV4 = true) := by
  rw [pickLanAddress_eq, Option.or_eq_some_iff] at hpick
  rcases hpick with hv4 | ⟨hnone, hfirst⟩
  · have hfound := List.find?_some hv4
    simp only [Bool.and_eq_true, Bool.not_eq_true'] at hfound
    exact ⟨List.mem_of_find?_eq_some hv4, hfound.1, fun _ _ _ _ => hfound.2⟩
  · have hfound := List.find?_some hfirst
    simp only [Bool.not_eq_true'] at hfound
    refine ⟨List.mem_of_find?_eq_some hfirst, hfound, fun other hmem hother hv4 => ?_⟩
    have hnot := List.find?_eq_none.mp hnone other hmem
    simp [hother, hv4] at hnot

/-- What others read is a loopback address just if the list hides one. -/
theorem isLoopback_canonical_of_pick_iff (hpick : pickLanAddress addresses = some ip) :
    ip.canonical.isLoopback = true ↔ HidesLoopback addresses := by
  obtain ⟨-, hloopback, hprefers⟩ := pickLanAddress_spec hpick
  rw [ip.isLoopback_canonical, hloopback, Bool.false_or]
  rw [pickLanAddress_eq, Option.or_eq_some_iff] at hpick
  constructor
  · intro hhidden
    -- A mapped address is not IPv4, so no address was preferred to it.
    have hlong : ip.isV4 = false := by
      obtain ⟨octets, hmapped, -⟩ := (Option.any_eq_true _ _).mp hhidden
      exact Ip.not_isV4_of_mapped? hmapped
    have hnone : ∀ other ∈ addresses, other.isV4 = true → other.isLoopback = true := by
      intro other hmem hv4
      cases hother : other.isLoopback with
      | true => rfl
      | false =>
        rw [hprefers other hmem hother hv4] at hlong
        cases hlong
    rcases hpick with hv4 | ⟨-, hfirst⟩
    · have hfound := List.find?_some hv4
      simp [hlong] at hfound
    · exact ⟨hnone, ip, hfirst, hhidden⟩
  · rintro ⟨hnone, first, hfirst, hhidden⟩
    rcases hpick with hv4 | ⟨-, hown⟩
    · have hfound := List.find?_some hv4
      simp only [Bool.and_eq_true, Bool.not_eq_true'] at hfound
      rw [hnone ip (List.mem_of_find?_eq_some hv4) hfound.2] at hfound
      cases hfound.1
    · rw [hown] at hfirst
      obtain rfl := Option.some.inj hfirst
      exact hhidden

end LocalPlay.Net
