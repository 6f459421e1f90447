import LocalPlay.Proofs.Net.Interface
import LocalPlay.Proofs.Session.Advertising
import LocalPlay.Proofs.Session.Coherence

/-!
# Where others find a hosted proxy

A session that hosts a proxy says in its requests for a network where others on the local network
find it. The place is looked up when the request is written, so it is said by the session of that
moment, with the interfaces and the local address it has had from the beginning. What others read is
the canonical form of an address that is listed and not loopback. But the canonical form may be one,
if the list hides it: `placed_unless_hidden` says when.
-/

namespace LocalPlay.Session

open Net Wire Overlay Timing

/-- What others read in the profile is the canonical form of a listed address that is not loopback,
and IPv4 if there is such an address; it is loopback itself just if the list hides one. -/
def Placed (addresses : List Ip) (here : Endpoint) (profile : HostProfile) : Prop :=
  ∃ listed ∈ addresses, listed.isLoopback = false ∧
    Ip.ofField? profile.privateIp profile.family = some listed.canonical ∧
    (∀ other ∈ addresses, other.isLoopback = false → other.isV4 = true →
      listed.canonical.isV4 = true) ∧
    (listed.canonical.isLoopback = true ↔ HidesLoopback addresses) ∧
    profile.internalPort = here.port ∧ profile.externalPort = 0

variable {origin s t : Session} {m : Move} {told : List Notice}

/-! ### One profile -/

theorem placed_of_pick {addresses : List Ip} {ip : Ip} {here : Endpoint} {profile : HostProfile}
    (hpick : pickLanAddress addresses = some ip) (hnames : Names profile ip here.port) :
    Placed addresses here profile := by
  obtain ⟨hmem, hloopback, hprefers⟩ := pickLanAddress_spec hpick
  obtain ⟨haddress, hfamily, hinternal, hexternal⟩ := hnames
  refine ⟨ip, hmem, hloopback, ?_, fun other hother husable hv4 => ?_,
    isLoopback_canonical_of_pick_iff hpick, hinternal, hexternal⟩
  · rw [haddress, hfamily]
    exact ip.ofField?_toField
  · have hown := hprefers other hother husable hv4
    rwa [Ip.canonical_of_isV4 hown]

/-- A host whose place is known names it. -/
theorem names_advertise (hopen : t.transportOpen = true) (hhosted : t.hosted.isSome = true)
    {ip : Ip} {here : Endpoint} (hlocal : t.localAddress = .ok here)
    (hlan : t.interfaces.lanAddress = .ok (some ip)) (profile : HostProfile) :
    Names (t.advertise profile) ip here.port := by
  have hhosting : ¬ (t.hosted.isNone = true ∨ (!t.transportOpen) = true) := by
    simp [hopen, ← Option.isSome_iff_ne_none, hhosted]
  rw [advertise, if_neg hhosting, hlocal, hlan]
  exact ⟨rfl, rfl, rfl, rfl⟩

/-! ### Runs -/

theorem Step.interfaces_eq {more : List Notice} (h : Step origin m s t more) :
    t.interfaces = s.interfaces ∧ t.localAddress = s.localAddress := by
  cases h with
  | _ => exact ⟨rfl, rfl⟩

theorem Steps.interfaces_eq (h : Steps origin m s t told) :
    t.interfaces = s.interfaces ∧ t.localAddress = s.localAddress := by
  induction h with
  | refl => exact ⟨rfl, rfl⟩
  | tail _ hstep ih =>
    have hlast := hstep.interfaces_eq
    exact ⟨hlast.1.trans ih.1, hlast.2.trans ih.2⟩

theorem interfaces_after (s : Session) (moves : List Move) :
    (s.after moves).session.interfaces = s.interfaces ∧
      (s.after moves).session.localAddress = s.localAddress := by
  induction moves using List.reverseRecOn with
  | nil => exact ⟨rfl, rfl⟩
  | append_singleton moves m ih =>
    have hlast := (steps_move (s.after moves).session m).interfaces_eq
    rw [after_concat]
    exact ⟨hlast.1.trans ih.1, hlast.2.trans ih.2⟩

/-- Every request for a network belongs to a call that was begun before, and is written on an open
link. If the session that writes it hosts a proxy, and an address is found for it, what others read
in the request is the canonical form of a listed address that is not loopback, and IPv4 if such an
address is listed; it is a loopback address all the same just if no IPv4 address can be offered and
a mapped loopback address is the first that can. If no address is found, or the lookup fails, all of
the profile but its game version is the caller's. -/
theorem placed_unless_hidden {settings : Settings} {interfaces : Interfaces}
    {localAddress : Except IoError Endpoint}
    (hcreate : create settings interfaces localAddress = .ok s) (moves : List Move) {m : Move}
    {caller : Option Nat} {target : Target} {packet : Packet} {refusal : Option SendError}
    (hsent : .posted caller target packet refusal ∈ ((s.after moves).session.move m).told)
    (hasks : asksForNetwork packet = true) :
    let t := (s.after moves).session.writer m
    ∃ early operation profile, early ++ [.event (.call (.operate operation))] <+: moves ++ [m] ∧
      caller = some (s.after early).session.calls ∧ operation.profile? = some profile ∧
      packet = operation.request t.advertise ∧ t.transportOpen = true ∧
      (t.hosted.isSome = true → ∀ addresses here ip, interfaces = .ok addresses →
        localAddress = .ok here → pickLanAddress addresses = some ip →
        Placed addresses here (t.advertise profile)) ∧
      ((∀ ip, interfaces.lanAddress ≠ .ok (some ip)) →
        t.advertise profile = { profile with gameVersion := t.gameVersion }) := by
  intro t
  have hsound : (s.after moves).session.Sound := (sound_create hcreate).after moves
  obtain ⟨call, operation, rfl, rfl, rfl, hlinked, hcalled⟩ :=
    exists_operation_of_move hsound.numbered hsent (isRequest_of_asksForNetwork hasks)
  obtain ⟨profile, hprofile⟩ := Operation.exists_profile hasks
  have hcall : ∃ early, early ++ [.event (.call (.operate operation))] <+: moves ++ [m] ∧
      call = (s.after early).session.calls := by
    rcases hcalled with ⟨rfl, rfl⟩ | ⟨w, hw, rfl, hpause⟩
    · exact ⟨moves, List.prefix_rfl, rfl⟩
    · have hnobody : s.waiting = [] := by
        obtain ⟨relay, rfl⟩ := create_eq hcreate
        rfl
      obtain ⟨early, hearly, hid⟩ := exists_call_of_handshake hnobody moves hw hpause
      exact ⟨early, hearly.trans (List.prefix_append _ _), hid⟩
  obtain ⟨early, hearly, rfl⟩ := hcall
  obtain ⟨networks, idle, ready, hosted, calls, hwriter⟩ := (s.after moves).session.exists_writer_eq m
  have hopen : t.transportOpen = true := by
    rw [← Bool.not_eq_false]
    intro hclosed
    have hsame : t.transportOpen = (s.after moves).session.transportOpen := by simp [t, hwriter]
    exact hlinked ((coherent_after hcreate moves).idle_iff.mpr (hsame ▸ hclosed))
  obtain ⟨hinterfaces, hlocal⟩ : t.interfaces = interfaces ∧ t.localAddress = localAddress := by
    have hfixed := interfaces_after s moves
    obtain ⟨relay, rfl⟩ := create_eq hcreate
    simpa [t, hwriter] using hfixed
  refine ⟨early, operation, profile, hearly, rfl, hprofile, rfl, hopen, ?_, ?_⟩
  · intro hhosted addresses here ip haddresses hhere hpick
    refine placed_of_pick hpick (names_advertise hopen hhosted (hlocal.trans hhere) ?_ profile)
    rw [hinterfaces, haddresses, Interfaces.lanAddress, Except.map, hpick]
  · intro hnone
    refine (advertise_eq_rename_iff hopen profile).mpr (.inr fun ip port hplace => ?_)
    rw [place?, hinterfaces] at hplace
    split at hplace
    · exact absurd ‹_› (hnone _)
    · cases hplace

/-! ### Stations with several addresses -/

/-- The sample session at a station with these addresses. -/
def stationed (addresses : List Ip) : Session :=
  { sample with interfaces := .ok addresses }

/-- A loopback address, an address of a link, and an IPv4 address that others can reach. -/
def mixedAddresses : List Ip :=
  [.v4 (Block.ofBytes [127, 0, 0, 1]), .v6 (Block.ofBytes [0xFE, 0x80]), sampleIp]

/-- A network is asked for at a station with such addresses. -/
theorem placed_of_mixedAddresses :
    create {} (.ok mixedAddresses) (.ok sampleAddress) = .ok (stationed mixedAddresses) ∧
      ∃ request refusal, .posted (some 0) .relay (.createPublic request []) refusal ∈
          (((stationed mixedAddresses).after (creatingRun.take 2)).session.move
            (.turn (.resume 0))).told ∧
        Placed mixedAddresses sampleAddress request.profile ∧ ¬ HidesLoopback mixedAddresses := by
  have hcreate : create {} (.ok mixedAddresses) (.ok sampleAddress) =
      .ok (stationed mixedAddresses) := rfl
  have hfound : (((stationed mixedAddresses).after (creatingRun.take 2)).session.move
      (.turn (.resume 0))).told.findSome? Notice.applicant? = some (some 0,
        { (default : HostProfile) with
          privateIp := sampleIp.toField.1, family := .v4, internalPort := 40000 }) := by
    decide +kernel
  obtain ⟨request, refusal, hsent, hprofile⟩ := exists_of_applicant? hfound
  obtain ⟨early, operation, profile, -, -, hown, hpacket, -, hplaced, -⟩ :=
    placed_unless_hidden hcreate (creatingRun.take 2) hsent rfl
  have hrequest : request.profile =
      (((stationed mixedAddresses).after (creatingRun.take 2)).session.writer
        (.turn (.resume 0))).advertise profile := by
    cases operation with
    | createPublic own advertised =>
      cases hown
      cases hpacket
      rfl
    | _ => cases hpacket
  have hhosted : (((stationed mixedAddresses).after (creatingRun.take 2)).session.writer
      (.turn (.resume 0))).hosted.isSome = true := by
    decide +kernel
  refine ⟨hcreate, request, refusal, hsent, ?_, ?_⟩
  · rw [hrequest]
    exact hplaced hhosted mixedAddresses sampleAddress sampleIp rfl rfl (by decide)
  · rintro ⟨hnone, -⟩
    exact absurd (hnone sampleIp (by decide) rfl) (by decide)

/-- The one address is an IPv6 address that stands for a loopback address. -/
def maskedAddresses : List Ip :=
  [.v6 (Block.ofBytes (Ip.mappedStart ++ [127, 0, 0, 1]))]

/-- A network is asked for at such a station, and others are told to find its proxy at 127.0.0.1. -/
theorem loopback_advertised :
    create {} (.ok maskedAddresses) (.ok sampleAddress) = .ok (stationed maskedAddresses) ∧
      ∃ request refusal, .posted (some 0) .relay (.createPublic request []) refusal ∈
          (((stationed maskedAddresses).after (creatingRun.take 2)).session.move
            (.turn (.resume 0))).told ∧
        ∃ read, Ip.ofField? request.profile.privateIp request.profile.family = some read ∧
          read.isLoopback = true := by
  have hfound : (((stationed maskedAddresses).after (creatingRun.take 2)).session.move
      (.turn (.resume 0))).told.findSome? Notice.applicant? = some (some 0,
        { (default : HostProfile) with
          privateIp := Block.ofBytes [127, 0, 0, 1], family := .v4, internalPort := 40000 }) := by
    decide +kernel
  obtain ⟨request, refusal, hsent, hprofile⟩ := exists_of_applicant? hfound
  refine ⟨rfl, request, refusal, hsent, .v4 (Block.ofBytes [127, 0, 0, 1]), ?_, by decide⟩
  rw [hprofile]
  decide

end LocalPlay.Session
