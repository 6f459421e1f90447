import LocalPlay.Net.Ip
import LocalPlay.Proofs.Wire.Layout

/-!
# Addresses in their fields

A message has an address as sixteen bytes and a family. Both families share the bytes, an IPv4
address is followed by zeros, and a mapped address goes in as the IPv4 address it stands for. What
is read back is the canonical form: no two of these share field and family, and the zeros that stand
for any address are the field of the two unspecified addresses alone.
-/

namespace LocalPlay.Net.Ip

open Wire (AddressFamily)

/-- Nothing is lost of four bytes in a field of sixteen. -/
theorem ofBytes_ofBytes_octets (octets : Block 4) :
    Block.ofBytes (Block.ofBytes octets.bytes : Block 16).bytes = octets := by
  have hfield : (Block.ofBytes octets.bytes : Block 16).bytes =
      octets.bytes ++ List.replicate (16 - octets.bytes.length) 0 := by
    have hshort : octets.bytes.take 16 = octets.bytes := by
      apply List.take_of_length_le
      rw [octets.length_bytes]
      decide
    show Bytes.fit 16 octets.bytes = _
    rw [Bytes.fit, hshort]
  ext1
  show Bytes.fit 4 _ = octets.bytes
  rw [hfield, Bytes.fit_append (Nat.le_of_eq octets.length_bytes.symm),
    Bytes.fit_of_length octets.length_bytes]

/-- The canonical form is read back. -/
theorem ofField?_toField (ip : Ip) : ofField? ip.toField.1 ip.toField.2 = some ip.canonical := by
  rw [toField]
  cases ip.canonical with
  | v4 octets =>
    dsimp only
    rw [ofField?, ofBytes_ofBytes_octets]
  | v6 octets => rfl

/-- Two addresses share field and family just if they are the same in canonical form. -/
theorem toField_eq_iff {ip other : Ip} :
    ip.toField = other.toField ↔ ip.canonical = other.canonical := by
  constructor
  · intro hfield
    have hread := ip.ofField?_toField
    rw [hfield, other.ofField?_toField] at hread
    exact (Option.some.inj hread).symm
  · intro hcanonical
    rw [toField, toField, hcanonical]

/-- Only the unspecified addresses have a field of zeros. -/
theorem toField_eq_zero_iff {ip : Ip} :
    ip.toField.1 = Block.zero ↔ ip.canonical = .v4 .zero ∨ ip.canonical = .v6 .zero := by
  rw [toField]
  cases ip.canonical with
  | v4 octets =>
    dsimp only
    constructor
    · intro hzero
      have hread := ofBytes_ofBytes_octets octets
      rw [hzero] at hread
      exact .inl (congrArg v4 (hread.symm.trans (by decide)))
    · rintro (hzero | hzero)
      · rw [Ip.v4.inj hzero]
        decide
      · exact nomatch hzero
  | v6 octets => simp

end LocalPlay.Net.Ip
