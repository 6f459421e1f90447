import LocalPlay.Proofs.Wire.Packet

/-!
# What a layout writes back

Bytes that were read and written again are the same bytes wherever an encoder could have put them
there, and nowhere else. That is a law for each slot, `Renews`: a number or a block always comes back,
a flag only as 0 or 1, a choice only if its number is known, padding only as zeros. The leaves keep
it, and `pair` and `map` hand it on, so like the laws of `Lawful` it is proved of a message by the
way the message is put together. `Format` lists the types with a fixed layout, each with its size.
-/

namespace LocalPlay

namespace Bytes

theorem littleEndian_ofLittleEndian (bytes : Bytes) :
    littleEndian bytes.length (ofLittleEndian bytes) = bytes := by
  induction bytes with
  | nil => rfl
  | cons byte rest ih =>
    have hbyte : byte.toNat < 256 := byte.toNat_lt
    have hlow : (byte.toNat + 256 * ofLittleEndian rest) % 256 = byte.toNat := by omega
    have hhigh : (byte.toNat + 256 * ofLittleEndian rest) / 256 = ofLittleEndian rest := by omega
    rw [List.length_cons, ofLittleEndian, littleEndian, hlow, hhigh, ih, UInt8.ofNat_toNat]

theorem ofLittleEndian_lt (bytes : Bytes) : ofLittleEndian bytes < 256 ^ bytes.length := by
  induction bytes with
  | nil => decide
  | cons byte rest ih =>
    have hbyte : byte.toNat < 256 := byte.toNat_lt
    rw [ofLittleEndian, List.length_cons, Nat.pow_succ']
    omega

/-- Only the number that was read is written as the bytes it was read from. -/
theorem littleEndian_eq_iff {bytes : Bytes} {number : Nat} (h : number < 256 ^ bytes.length) :
    littleEndian bytes.length number = bytes ↔ number = ofLittleEndian bytes := by
  constructor
  · intro heq
    have hread := ofLittleEndian_littleEndian bytes.length number
    rwa [heq, Nat.mod_eq_of_lt h, eq_comm] at hread
  · intro heq
    rw [heq, littleEndian_ofLittleEndian]

end Bytes

namespace Wire

namespace Layout

variable {α β : Type}

/-! ### Slot by slot -/

/-- Every slot holds bytes an encoder writes there. -/
def Canonical : List Slot → Bytes → Prop
  | [], _ => True
  | slot :: slots, bytes =>
    slot.Canonical (bytes.take slot.width) ∧ Canonical slots (bytes.drop slot.width)

instance decidableCanonical : (slots : List Slot) → (bytes : Bytes) →
    Decidable (Canonical slots bytes)
  | [], _ => .isTrue trivial
  | slot :: slots, bytes =>
    have := decidableCanonical slots (bytes.drop slot.width)
    inferInstanceAs (Decidable (slot.Canonical (bytes.take slot.width) ∧ _))

/-- Slot by slot, `written` has the bytes of `read` exactly if an encoder writes such bytes there. -/
def Renews : List Slot → (read written : Bytes) → Prop
  | [], _, _ => True
  | slot :: slots, read, written =>
    (written.take slot.width = read.take slot.width ↔ slot.Canonical (read.take slot.width)) ∧
      Renews slots (read.drop slot.width) (written.drop slot.width)

@[simp] theorem renews_singleton (slot : Slot) (read written : Bytes) :
    Renews [slot] read written ↔
      (written.take slot.width = read.take slot.width ↔ slot.Canonical (read.take slot.width)) :=
  iff_of_eq (and_true _)

theorem renews_append (slots more : List Slot) (read written : Bytes) :
    Renews (slots ++ more) read written ↔ Renews slots read written ∧
      Renews more (read.drop (slots.foldr (·.width + ·) 0))
        (written.drop (slots.foldr (·.width + ·) 0)) := by
  induction slots generalizing read written with
  | nil => simp [Renews]
  | cons slot slots ih =>
    rw [List.cons_append, Renews, Renews, ih, List.foldr_cons, List.drop_drop, List.drop_drop,
      and_assoc]

/-- What is written behind the slots does not count. -/
theorem renews_append_written {slots : List Slot} {read written : Bytes}
    (h : slots.foldr (·.width + ·) 0 ≤ written.length) (tail : Bytes) :
    Renews slots read (written ++ tail) ↔ Renews slots read written := by
  induction slots generalizing read written with
  | nil => rfl
  | cons slot slots ih =>
    rw [List.foldr_cons] at h
    have hdrop : (written ++ tail).drop slot.width = written.drop slot.width ++ tail :=
      List.drop_append_of_le_length (by omega)
    rw [Renews, Renews, List.take_append_of_le_length (by omega), hdrop,
      ih (by rw [List.length_drop]; omega)]

/-- All bytes come back exactly if every slot is canonical. -/
theorem eq_take_iff_canonical {slots : List Slot} {read written : Bytes}
    (hlength : written.length = slots.foldr (·.width + ·) 0) (hrenews : Renews slots read written) :
    written = read.take (slots.foldr (·.width + ·) 0) ↔ Canonical slots read := by
  induction slots generalizing read written with
  | nil => simpa [Canonical] using hlength
  | cons slot slots ih =>
    rw [List.foldr_cons] at hlength ⊢
    obtain ⟨hslot, hrest⟩ := hrenews
    have hrest := ih (by rw [List.length_drop]; omega) hrest
    rw [Canonical, ← hslot, ← hrest, List.take_add]
    constructor
    · intro heq
      have hwidth : (read.take slot.width).length = slot.width := by
        have := congrArg List.length heq
        simp only [List.length_append, List.length_take, List.length_drop] at this ⊢
        omega
      rw [heq, List.take_left' hwidth, List.drop_left' hwidth]
      exact ⟨rfl, rfl⟩
    · rintro ⟨hfirst, hafter⟩
      rw [← hfirst, ← hafter, List.take_append_drop]

/-! ### The law -/

/-- A lawful layout that writes back what it reads, slot by slot, up to what is not canonical. -/
structure Exact (layout : Layout α) : Prop extends layout.Lawful where
  renews : ∀ {bytes : Bytes}, layout.size ≤ bytes.length →
    Renews layout.slots bytes (layout.encode (layout.decode bytes))

namespace Exact

theorem pair {first : Layout α} {second : Layout β} (hfirst : first.Exact)
    (hsecond : second.Exact) : (first.pair second).Exact where
  toLawful := hfirst.toLawful.pair hsecond.toLawful
  renews {bytes} hlong := by
    rw [size_pair] at hlong
    have hlength := hfirst.length_encode (first.decode bytes)
    refine (renews_append first.slots second.slots bytes _).mpr ⟨?_, ?_⟩
    · exact (renews_append_written (Nat.le_of_eq hlength.symm) _).mpr (hfirst.renews (by omega))
    · show Renews _ (bytes.drop first.size) ((first.encode (first.decode bytes) ++
        second.encode (second.decode (bytes.drop first.size))).drop first.size)
      rw [List.drop_left' hlength]
      exact hsecond.renews (by rw [List.length_drop]; omega)

theorem map {layout : Layout α} (h : layout.Exact) {build : α → β} {split : β → α}
    (hbuild : ∀ value, build (split value) = value) (hsplit : ∀ value, split (build value) = value) :
    (layout.map build split).Exact where
  toLawful := h.toLawful.map hbuild
  renews {bytes} hlong := by
    show Renews layout.slots bytes (layout.encode (split (build (layout.decode bytes))))
    rw [hsplit]
    exact h.renews hlong

end Exact

/-! ### Leaves -/

theorem exact_u8 : u8.Exact where
  toLawful := lawful_u8
  renews {bytes} hlong := by
    cases bytes with
    | nil => exact absurd hlong (by decide)
    | cons byte rest => simp [u8, Slot.Canonical]

theorem exact_flag : flag.Exact where
  toLawful := lawful_flag
  renews {bytes} hlong := by
    cases bytes with
    | nil => exact absurd hlong (by decide)
    | cons byte rest =>
      refine (renews_singleton _ _ _).mpr ?_
      show [if byte != 0 then (1 : UInt8) else 0] = [byte] ↔ byte.toNat + 256 * 0 ≤ 1
      rw [List.singleton_inj, Nat.mul_zero, Nat.add_zero]
      constructor
      · intro heq
        rw [← heq]
        split <;> decide
      · intro hle
        obtain h | h := Nat.le_one_iff_eq_zero_or_eq_one.mp hle
        · rw [UInt8.toNat_inj.mp (h.trans rfl : byte.toNat = (0 : UInt8).toNat)]
          rfl
        · rw [UInt8.toNat_inj.mp (h.trans rfl : byte.toNat = (1 : UInt8).toNat)]
          rfl

/-- A leaf that reads and writes a number of `width` bytes is exact if a number survives its way
through the value exactly if the rule of the slot allows its bytes. -/
theorem exact_number {width : Nat} {rule : SlotRule} {toNumber : α → Nat} {ofNumber : Nat → α}
    (hlt : ∀ value, toNumber value < 256 ^ width)
    (hof : ∀ value, ofNumber (toNumber value) = value)
    (hrule : ∀ bytes : Bytes, bytes.length = width →
      (toNumber (ofNumber bytes.ofLittleEndian) = bytes.ofLittleEndian ↔
        Slot.Canonical ⟨width, rule⟩ bytes)) :
    Exact
      { slots := [⟨width, rule⟩]
        encode := fun value => Bytes.littleEndian width (toNumber value)
        decode := fun bytes => ofNumber (Bytes.ofLittleEndian (bytes.take width)) } where
  toLawful := lawful_number width rule toNumber ofNumber hlt hof
  renews {bytes} hlong := by
    have hlong : width ≤ bytes.length := by simpa [size] using hlong
    have hwidth : (bytes.take width).length = width := List.length_take_of_le hlong
    refine (renews_singleton _ _ _).mpr ?_
    show (Bytes.littleEndian width (toNumber (ofNumber (Bytes.ofLittleEndian (bytes.take width))))
      ).take width = bytes.take width ↔ _
    have hback := Bytes.littleEndian_eq_iff
      (hwidth.symm ▸ hlt (ofNumber (Bytes.ofLittleEndian (bytes.take width))))
    rw [hwidth] at hback
    rw [List.take_of_length_le (Nat.le_of_eq (Bytes.length_littleEndian _ _)), hback]
    exact hrule _ hwidth

theorem exact_u16 : u16.Exact :=
  exact_number UInt16.toNat_lt (fun _ => UInt16.ofNat_toNat) fun bytes hlength => by
    have hlt : bytes.ofLittleEndian < UInt16.size := by
      simpa [hlength] using bytes.ofLittleEndian_lt
    exact iff_true_intro (UInt16.toNat_ofNat_of_lt' hlt)

theorem exact_u32 : u32.Exact :=
  exact_number UInt32.toNat_lt (fun _ => UInt32.ofNat_toNat) fun bytes hlength => by
    have hlt : bytes.ofLittleEndian < UInt32.size := by
      simpa [hlength] using bytes.ofLittleEndian_lt
    exact iff_true_intro (UInt32.toNat_ofNat_of_lt' hlt)

theorem exact_i32 : i32.Exact where
  toLawful := lawful_i32
  renews := exact_u32.renews

/-- A choice writes back the numbers it knows, if every value is written as one of them. -/
theorem exact_choice {width : Nat} {known : List Nat} {toNumber : α → Nat} {ofNumber : Nat → α}
    (hlt : ∀ value, toNumber value < 256 ^ width)
    (hof : ∀ value, ofNumber (toNumber value) = value)
    (hmem : ∀ value, toNumber value ∈ known)
    (hback : ∀ number ∈ known, toNumber (ofNumber number) = number) :
    (choice width known toNumber ofNumber).Exact :=
  exact_number hlt hof fun bytes _ => by
    show _ ↔ bytes.ofLittleEndian ∈ known
    exact ⟨fun h => h ▸ hmem _, hback _⟩

theorem exact_block (n : Nat) : (block n).Exact where
  toLawful := lawful_block n
  renews {bytes} hlong := by
    have hlong : n ≤ bytes.length := by simpa [size, block] using hlong
    refine (renews_singleton _ _ _).mpr (iff_true_intro ?_)
    show (bytes.fit n).take n = bytes.take n
    rw [Bytes.fit, List.take_left' (List.length_take_of_le hlong)]

theorem exact_padding (width : Nat) : (padding width).Exact where
  toLawful := lawful_padding width
  renews {bytes} hlong := by
    have hlong : width ≤ bytes.length := by simpa [size, padding] using hlong
    refine (renews_singleton _ _ _).mpr ?_
    show (List.replicate width 0).take width = bytes.take width ↔ ∀ byte ∈ bytes.take width, byte = 0
    rw [List.take_of_length_le (Nat.le_of_eq List.length_replicate), eq_comm, List.eq_replicate_iff]
    exact and_iff_right (List.length_take_of_le hlong)

end Layout

open Layout

/-! ### The messages -/

theorem Header.exact_layout : Header.layout.Exact :=
  (exact_u32.pair <| exact_u32.pair <| exact_flag.pair <| exact_u8.pair <|
    exact_u8.pair exact_u32).map (fun _ => rfl) fun _ => rfl

theorem AddressFamily.exact_layout : AddressFamily.layout.Exact :=
  exact_choice (fun family => by cases family <;> decide) (fun family => by cases family <;> rfl)
    (fun family => by cases family <;> decide) (by decide)

theorem NetworkError.exact_layout : NetworkError.layout.Exact :=
  exact_choice (fun error => by cases error <;> decide) (fun error => by cases error <;> rfl)
    (fun error => by cases error <;> decide) (by decide)

theorem LeaveReason.exact_layout : LeaveReason.layout.Exact :=
  exact_choice (fun reason => by cases reason <;> decide) (fun reason => by cases reason <;> rfl)
    (fun reason => by cases reason <;> decide) (by decide)

theorem JoinPolicy.exact_layout : JoinPolicy.layout.Exact :=
  exact_choice (fun policy => by cases policy <;> decide) (fun policy => by cases policy <;> rfl)
    (fun policy => by cases policy <;> decide) (by decide)

theorem Identity.exact_layout : Identity.layout.Exact :=
  ((exact_block 16).pair (exact_block 6)).map (fun _ => rfl) fun _ => rfl

theorem HostProfile.exact_layout : HostProfile.layout.Exact :=
  ((exact_block 16).pair <| (exact_block 16).pair <| AddressFamily.exact_layout.pair <|
    exact_u16.pair exact_u16).map (fun _ => rfl) fun _ => rfl

theorem AccessPoint.exact_layout (n : Nat) : (AccessPoint.layout n).Exact :=
  ((exact_block n).pair HostProfile.exact_layout).map (fun _ => rfl) fun _ => rfl

theorem ProxyOffer.exact_layout : ProxyOffer.layout.Exact :=
  ((exact_block 16).pair <| AddressFamily.exact_layout.pair <|
    exact_u16.pair (exact_block 16)).map (fun _ => rfl) fun _ => rfl

theorem ProxyToken.exact_layout : ProxyToken.layout.Exact :=
  (exact_u32.pair <| (exact_block 16).pair <|
    (exact_block 16).pair AddressFamily.exact_layout).map (fun _ => rfl) fun _ => rfl

theorem ProxyPresence.exact_layout : ProxyPresence.layout.Exact :=
  (exact_u32.pair <| exact_flag.pair (exact_padding 3)).map (fun _ => rfl) fun _ => rfl

theorem OverlayConfig.exact_layout : OverlayConfig.layout.Exact :=
  (exact_u32.pair exact_u32).map (fun _ => rfl) fun _ => rfl

theorem Addressing.exact_layout : Addressing.layout.Exact :=
  (exact_u32.pair <| exact_u16.pair <| exact_u32.pair <|
    exact_u16.pair exact_i32).map (fun _ => rfl) fun _ => rfl

theorem DataHeader.exact_layout : DataHeader.layout.Exact :=
  (Addressing.exact_layout.pair exact_u32).map (fun _ => rfl) fun _ => rfl

theorem ProxyClosure.exact_layout : ProxyClosure.layout.Exact :=
  (Addressing.exact_layout.pair exact_i32).map (fun _ => rfl) fun _ => rfl

theorem Removal.exact_layout : Removal.layout.Exact :=
  (exact_u32.pair LeaveReason.exact_layout).map (fun _ => rfl) fun _ => rfl

theorem Ping.exact_layout : Ping.layout.Exact :=
  (exact_u8.pair exact_u8).map (fun _ => rfl) fun _ => rfl

/-! ### Every type with a fixed layout -/

/-- What has a fixed layout: the header, the fixed part of every kind of packet and the records they
are put together from. -/
inductive Format where
  | header
  | identity
  | passphrase
  | networkInfo
  | scanFilter
  | publicSettings
  | privateSettings
  | publicJoin
  | privateJoin
  | hostProfile
  | createPublic
  | createPrivate
  | proxyOffer
  | proxyToken
  | proxyState
  | overlayConfig
  | addressing
  | proxyConnect
  | proxyConnectReply
  | dataHeader
  | proxyDisconnect
  | removal
  | joinPolicy
  | disconnect
  | ping
  | networkError

namespace Format

/-- The values of the type. -/
abbrev Value : Format → Type
  | header => Header
  | identity => Identity
  | passphrase => Block passphraseSize
  | networkInfo => NetworkInfo
  | scanFilter => ScanFilter
  | publicSettings => PublicSettings
  | privateSettings => PrivateSettings
  | publicJoin => PublicJoin
  | privateJoin => PrivateJoin
  | hostProfile => HostProfile
  | createPublic => AccessPoint 0x94
  | createPrivate => AccessPoint 0x114
  | proxyOffer => ProxyOffer
  | proxyToken => ProxyToken
  | proxyState => ProxyPresence
  | overlayConfig => OverlayConfig
  | addressing | proxyConnect | proxyConnectReply => Addressing
  | dataHeader => DataHeader
  | proxyDisconnect => ProxyClosure
  | removal => Removal
  | joinPolicy => JoinPolicy
  | disconnect => UInt32
  | ping => Ping
  | networkError => NetworkError

/-- The layout packets of this format are read and written with. -/
def layout : (format : Format) → Layout format.Value
  | header => Header.layout
  | identity => Identity.layout
  | passphrase => block passphraseSize
  | networkInfo => block 0x480
  | scanFilter => block 0x60
  | publicSettings => block 0x94
  | privateSettings => block 0x114
  | publicJoin => block 0x4FC
  | privateJoin => block 0xBC
  | hostProfile => HostProfile.layout
  | createPublic => AccessPoint.layout 0x94
  | createPrivate => AccessPoint.layout 0x114
  | proxyOffer => ProxyOffer.layout
  | proxyToken => ProxyToken.layout
  | proxyState => ProxyPresence.layout
  | overlayConfig => OverlayConfig.layout
  | addressing | proxyConnect | proxyConnectReply => Addressing.layout
  | dataHeader => DataHeader.layout
  | proxyDisconnect => ProxyClosure.layout
  | removal => Removal.layout
  | joinPolicy => JoinPolicy.layout
  | disconnect => u32
  | ping => Ping.layout
  | networkError => NetworkError.layout

/-- How many bytes every value takes. -/
def size : Format → Nat
  | header => 15
  | identity => 0x16
  | passphrase => 0x80
  | networkInfo => 0x480
  | scanFilter => 0x60
  | publicSettings => 0x94
  | privateSettings => 0x114
  | publicJoin => 0x4FC
  | privateJoin => 0xBC
  | hostProfile => 0x28
  | createPublic => 0xBC
  | createPrivate => 0x13C
  | proxyOffer => 0x26
  | proxyToken => 0x28
  | proxyState => 8
  | overlayConfig => 8
  | addressing | proxyConnect | proxyConnectReply => 0x10
  | dataHeader => 0x14
  | proxyDisconnect => 0x14
  | removal => 8
  | joinPolicy => 1
  | disconnect => 4
  | ping => 2
  | networkError => 4

theorem size_layout (format : Format) : format.layout.size = format.size := by
  cases format <;> rfl

theorem exact_layout (format : Format) : format.layout.Exact := by
  cases format with
  | header => exact Header.exact_layout
  | identity => exact Identity.exact_layout
  | passphrase | networkInfo | scanFilter | publicSettings | privateSettings | publicJoin
  | privateJoin => exact exact_block _
  | hostProfile => exact HostProfile.exact_layout
  | createPublic | createPrivate => exact AccessPoint.exact_layout _
  | proxyOffer => exact ProxyOffer.exact_layout
  | proxyToken => exact ProxyToken.exact_layout
  | proxyState => exact ProxyPresence.exact_layout
  | overlayConfig => exact OverlayConfig.exact_layout
  | addressing | proxyConnect | proxyConnectReply => exact Addressing.exact_layout
  | dataHeader => exact DataHeader.exact_layout
  | proxyDisconnect => exact ProxyClosure.exact_layout
  | removal => exact Removal.exact_layout
  | joinPolicy => exact JoinPolicy.exact_layout
  | disconnect => exact exact_u32
  | ping => exact Ping.exact_layout
  | networkError => exact NetworkError.exact_layout

/-- Every value is written in exactly the size of its format and reads back from there whatever
follows. Bytes of at least that size are always read. Written again they are the same bytes exactly
if every choice holds a known number, every flag is 0 or 1 and all padding is zero; otherwise the
slots that are canonical, and no others, come back as they were. -/
theorem renews_what_is_canonical (format : Format) :
    (∀ value : format.Value, (format.layout.encode value).length = format.size ∧
      ∀ tail, format.layout.read (format.layout.encode value ++ tail) = .ok value) ∧
    ∀ bytes : Bytes, format.size ≤ bytes.length →
      ∃ value, format.layout.read bytes = .ok value ∧
        (format.layout.encode value = bytes.take format.size ↔
          Canonical format.layout.slots bytes) ∧
        Renews format.layout.slots bytes (format.layout.encode value) := by
  have hexact := format.exact_layout
  rw [← format.size_layout]
  constructor
  · intro value
    exact ⟨hexact.length_encode value, hexact.read_encode_append value⟩
  · intro bytes hlong
    have hrenews := hexact.renews hlong
    exact ⟨_, if_neg (Nat.not_lt.mpr hlong),
      eq_take_iff_canonical (hexact.length_encode _) hrenews, hrenews⟩

/-- A presence whose flag is 7 and whose padding is not zero, with a byte behind it: the address
comes back, the flag as 1 and the padding as zeros. -/
theorem renews_what_is_canonical_presence :
    8 ≤ ([10, 114, 0, 5, 7, 0, 9, 9, 42] : Bytes).length ∧
      ∃ value : ProxyPresence,
        ProxyPresence.layout.read [10, 114, 0, 5, 7, 0, 9, 9, 42] = .ok value ∧
        ProxyPresence.layout.encode value ≠ [10, 114, 0, 5, 7, 0, 9, 9] ∧
        ProxyPresence.layout.encode value = [10, 114, 0, 5, 1, 0, 0, 0] := by
  have hlong : proxyState.size ≤ ([10, 114, 0, 5, 7, 0, 9, 9, 42] : Bytes).length := by decide
  obtain ⟨value, hread, hiff, -⟩ := proxyState.renews_what_is_canonical.2 _ hlong
  have hnot : ¬ Canonical proxyState.layout.slots [10, 114, 0, 5, 7, 0, 9, 9, 42] := by decide
  refine ⟨hlong, value, hread, fun h => hnot (hiff.mp h), ?_⟩
  obtain rfl : (⟨0x0500720A, true⟩ : ProxyPresence) = value := Except.ok.inj hread
  rfl

end Format

end Wire

end LocalPlay
