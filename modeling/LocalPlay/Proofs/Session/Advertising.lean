import LocalPlay.Proofs.Session.Waiting

/-!
# What is advertised without permission

The request for a network is the caller's, with the game version put in, and, if a proxy is hosted
when it is sent, with the place where others find that proxy. Whether proxies are permitted is not
asked again at that point. So a request that is sent while they are forbidden is passed on as it is
just if no proxy is hosted: `passed_on_iff_unhosted`. A proxy that is hosted then is one from before
they were forbidden, since no other has taken its place.
-/

namespace LocalPlay.Session

open Net Wire Overlay Timing

/-! ### Requests -/

/-- Where others on the local network find a proxy hosted here, if that is known. -/
def place? (s : Session) : Option (Ip × UInt16) :=
  match s.localAddress, s.interfaces.lanAddress with
  | .ok here, .ok (some ip) => some (ip, here.port)
  | _, _ => none

/-- The profile with the game version, and otherwise as it is. -/
def rename (s : Session) (profile : HostProfile) : HostProfile :=
  { profile with gameVersion := s.gameVersion }

/-- The profile names this place, and no port further out. -/
def Names (profile : HostProfile) (ip : Ip) (port : UInt16) : Prop :=
  profile.privateIp = ip.toField.1 ∧ profile.family = ip.toField.2 ∧
    profile.internalPort = port ∧ profile.externalPort = 0

/-- The profile in the request for a network. -/
def Operation.profile? : Operation → Option HostProfile
  | createPublic request _ => some request.profile
  | createPrivate request _ => some request.profile
  | _ => none

/-- The relay is asked for a network. -/
def asksForNetwork : Packet → Bool
  | .createPublic _ _ | .createPrivate _ _ => true
  | _ => false

theorem isRequest_of_asksForNetwork {packet : Packet} (hasks : asksForNetwork packet = true) :
    isRequest packet = true := by
  cases packet with
  | createPublic request advertised => rfl
  | createPrivate request advertised => rfl
  | _ => exact absurd hasks Bool.false_ne_true

theorem isOperational_of_isRequest {packet : Packet} (hrequest : isRequest packet = true) :
    isOperational packet = true := by
  cases packet with
  | hello identity => rfl
  | passphrase field => rfl
  | _ => exact hrequest

theorem Operation.exists_profile {operation : Operation} {advertise : HostProfile → HostProfile}
    (hasks : asksForNetwork (operation.request advertise) = true) :
    ∃ profile, operation.profile? = some profile := by
  cases operation with
  | createPublic request advertised => exact ⟨_, rfl⟩
  | createPrivate request advertised => exact ⟨_, rfl⟩
  | _ => exact absurd hasks Bool.false_ne_true

/-- Requests are told apart by what they say of the host. -/
theorem Operation.request_eq_iff {operation : Operation} {profile : HostProfile}
    (hprofile : operation.profile? = some profile) (f g : HostProfile → HostProfile) :
    operation.request f = operation.request g ↔ f profile = g profile := by
  cases operation with
  | createPublic request advertised =>
    obtain rfl := Option.some.inj hprofile
    simp [Operation.request]
  | createPrivate request advertised =>
    obtain rfl := Option.some.inj hprofile
    simp [Operation.request]
  | _ => cases hprofile

variable {origin s t : Session} {m : Move} {told more : List Notice}

theorem advertise_congr (hversion : t.gameVersion = s.gameVersion) (hhosted : t.hosted = s.hosted)
    (hopen : t.transportOpen = s.transportOpen) (hlocal : t.localAddress = s.localAddress)
    (hinterfaces : t.interfaces = s.interfaces) : t.advertise = s.advertise := by
  funext profile
  rw [advertise, advertise, hversion, hhosted, hopen, hlocal, hinterfaces]

/-- On an open link a profile is advertised as it is, unless a proxy is hosted at a place that it
does not name already. -/
theorem advertise_eq_rename_iff (hopen : s.transportOpen = true) (profile : HostProfile) :
    s.advertise profile = s.rename profile ↔
      s.hosted = none ∨ ∀ ip port, s.place? = some (ip, port) → Names profile ip port := by
  cases hhosted : s.hosted with
  | none =>
    rw [advertise, hhosted]
    exact iff_of_true rfl (.inl rfl)
  | some host =>
    have hhosting : ¬ ((some host).isNone = true ∨ (!s.transportOpen) = true) := by simp [hopen]
    rw [advertise, hhosted, place?]
    dsimp only
    rw [if_neg hhosting]
    -- Where no place is known nothing is changed.
    cases s.localAddress with
    | error fault => exact iff_of_true rfl (.inr fun ip port => nofun)
    | ok here =>
      cases s.interfaces.lanAddress with
      | error fault => exact iff_of_true rfl (.inr fun ip port => nofun)
      | ok lan =>
        cases lan with
        | none => exact iff_of_true rfl (.inr fun ip port => nofun)
        | some ip =>
          obtain ⟨gameVersion, privateIp, family, externalPort, internalPort⟩ := profile
          constructor
          · intro hsame
            cases hsame
            refine .inr fun ip' port hplace => ?_
            cases hplace
            exact ⟨rfl, rfl, rfl, rfl⟩
          · rintro (hnone | hnames)
            · cases hnone
            · obtain ⟨rfl, rfl, rfl, rfl⟩ := hnames ip here.port rfl
              rfl

namespace Act

variable (call : Nat)

theorem mem_told_updatePassphrase {a : Act} {notice : Notice}
    (hmem : notice ∈ (a.updatePassphrase call).told) : notice ∈ a.told ∨
      ∃ field refusal, notice = .posted (some call) .relay (.passphrase field) refusal := by
  by_cases hsent : a.session.passphraseSent = some a.session.passphrase
  · rw [updatePassphrase_of_sent hsent] at hmem
    exact .inl hmem
  · obtain ⟨refusal, hupdate⟩ := updatePassphrase_of_new hsent call
    rw [hupdate] at hmem
    exact (List.mem_append.mp hmem).imp id fun hlast => ⟨_, _, List.mem_singleton.mp hlast⟩

/-- An operation tells the relay its passphrase, perhaps, and its request. -/
theorem mem_told_operate {a : Act} {operation : Operation} {notice : Notice}
    (hmem : notice ∈ (a.operate call operation).told) :
    notice ∈ a.told ∨
      (∃ field refusal, notice = .posted (some call) .relay (.passphrase field) refusal) ∨
      ∃ refusal,
        notice = .posted (some call) .relay (operation.request a.session.advertise) refusal := by
  have hasked {b : Act} (hmem : notice ∈ (b.asked call operation).told) : notice ∈ b.told ∨
      ∃ refusal,
        notice = .posted (some call) .relay (operation.request b.session.advertise) refusal := by
    obtain ⟨deadline, refusal, hasked⟩ := b.asked_eq call operation
    rw [hasked] at hmem
    exact (List.mem_append.mp hmem).imp id fun hlast => ⟨_, List.mem_singleton.mp hlast⟩
  have hafter (hmem : notice ∈ ((a.updatePassphrase call).asked call operation).told) :
      notice ∈ a.told ∨
        (∃ field refusal, notice = .posted (some call) .relay (.passphrase field) refusal) ∨
        ∃ refusal,
          notice = .posted (some call) .relay (operation.request a.session.advertise) refusal := by
    have hsame : (a.updatePassphrase call).session.advertise = a.session.advertise := by
      rw [session_updatePassphrase]
      rfl
    rcases hasked hmem with hmem | hrequest
    · exact (mem_told_updatePassphrase call hmem).imp id .inl
    · exact .inr (.inr (hsame ▸ hrequest))
  rw [operate_eq] at hmem
  cases operation with
  | scan filter => exact hafter hmem
  | createPrivate request advertised => exact hafter hmem
  | createPublic request advertised =>
    rcases mem_told_updatePassphrase call hmem with hmem | hfield
    · exact (hasked hmem).imp id .inr
    · exact .inr (.inl hfield)
  | connectPublic request => exact (hasked hmem).imp id .inr
  | connectPrivate request => exact (hasked hmem).imp id .inr

theorem mem_told_disposeHost {a : Act} {notice : Notice} (hmem : notice ∈ a.disposeHost.told) :
    notice ∈ a.told ∨ ∃ own, notice = .host own := by
  obtain ⟨ready, notices, hdispose⟩ := a.disposeHost_eq
  rw [hdispose] at hmem
  refine (List.mem_append.mp hmem).imp id fun hmem => ?_
  obtain ⟨own, -, rfl⟩ := List.mem_map.mp hmem
  exact ⟨own, rfl⟩

/-- Before an operation looks at the link it sends nothing. -/
theorem mem_told_prepare {a : Act} {operation : Operation} {notice : Notice}
    (hmem : notice ∈ (a.prepare operation).told) : notice ∈ a.told ∨ ∃ own, notice = .host own := by
  have hhost {b : Act} (hmem : notice ∈ b.hostProxy.told) :
      notice ∈ b.told ∨ ∃ own, notice = .host own := by
    rw [hostProxy] at hmem
    split at hmem
    · exact mem_told_disposeHost hmem
    · exact .inl hmem
  cases operation with
  | scan filter =>
    rw [prepare] at hmem
    split at hmem
    · exact .inl hmem
    · rw [refreshIdle] at hmem
      dsimp only at hmem
      split at hmem
      · exact .inl hmem
      · exact .inl hmem
  | createPublic request advertised =>
    exact hhost (b := a.update fun s => { s with idle := s.idle.disable }) hmem
  | createPrivate request advertised =>
    exact hhost (b := a.update fun s => { s with idle := s.idle.disable }) hmem
  | connectPublic request => exact .inl hmem
  | connectPrivate request => exact .inl hmem

/-- Who gets no link sends nothing. -/
theorem mem_told_giveUp {a : Act} {operation : Operation} {notice : Notice}
    (hmem : notice ∈ (a.giveUp call operation).told) :
    notice ∈ a.told ∨ (∃ own, notice = .host own) ∨ ∃ outcome, notice = .finished call outcome := by
  have hfinish {b : Act} {outcome : Outcome} (hmem : notice ∈ (b.finish call outcome).told) :
      notice ∈ b.told ∨ ∃ outcome, notice = .finished call outcome :=
    (List.mem_append.mp hmem).imp id fun hlast => ⟨_, List.mem_singleton.mp hlast⟩
  cases operation with
  | createPublic request advertised =>
    rcases hfinish hmem with hmem | hend
    · exact (mem_told_disposeHost hmem).imp id .inl
    · exact .inr (.inr hend)
  | createPrivate request advertised =>
    rcases hfinish hmem with hmem | hend
    · exact (mem_told_disposeHost hmem).imp id .inl
    · exact .inr (.inr hend)
  | scan filter => exact (hfinish hmem).imp id .inr
  | connectPublic request => exact (hfinish hmem).imp id .inr
  | connectPrivate request => exact (hfinish hmem).imp id .inr

end Act

/-! ### Who sends a request -/

theorem Operation.pause_ne_handshake (operation other : Operation) :
    operation.pause ≠ .handshake other := by
  cases operation with
  | _ => exact nofun

/-- A call that waits for the handshake was begun with its operation. -/
theorem exists_call_of_handshake (hnobody : s.waiting = []) (moves : List Move) {w : Waiting}
    {operation : Operation} (hw : w ∈ (s.after moves).session.waiting)
    (hpause : w.pause = .handshake operation) :
    ∃ early, early ++ [.event (.call (.operate operation))] <+: moves ∧
      w.id = (s.after early).session.calls := by
  induction moves using List.reverseRecOn with
  | nil =>
    have hw : w ∈ s.waiting := hw
    rw [hnobody] at hw
    cases hw
  | append_singleton moves m ih =>
    rw [after_concat] at hw
    have hfrom : Arises _ m w := arises hw
    cases hfrom with
    | @before v hv hbare =>
      have hawaited : w.pause.awaited ≠ [] := by
        rw [hpause]
        exact List.cons_ne_nil _ _
      rw [Waiting.eq_of_bare hawaited hbare.symm] at hv
      obtain ⟨early, hearly, hown⟩ := ih hv
      exact ⟨early, hearly.trans (List.prefix_append _ _), hown⟩
    | begins hmove hid hfirst =>
      rw [hpause] at hfirst
      generalize hown : Pause.handshake operation = pause at hfirst
      cases hfirst with
      | handshake =>
        obtain rfl := Pause.handshake.inj hown
        exact ⟨moves, hmove ▸ List.prefix_rfl, hid⟩
      | operate other => exact absurd hown.symm (other.pause_ne_handshake operation)
      | _ => cases hown
    | goesOn _ _ _ hnext =>
      rw [hpause] at hnext
      rcases hnext.cases with ⟨other, -, hown, -⟩ | ⟨-, hpromised⟩
      · exact absurd hown.symm (other.pause_ne_handshake operation)
      · cases hpromised

/-- A request is sent by an operation that begins on a link, or after the handshake. -/
theorem Step.requests (h : Step origin m s t more) {caller : Option Nat} {target : Target}
    {packet : Packet} {refusal : Option SendError}
    (hsent : .posted caller target packet refusal ∈ more) (hrequest : isRequest packet = true) :
    ∃ call operation, caller = some call ∧ target = .relay ∧
      packet = operation.request s.advertise ∧ s.phase ≠ .idle ∧
      (m = .event (.call (.operate operation)) ∧ call = origin.calls ∧ origin.phase ≠ .idle ∨
        ∃ w ∈ origin.waiting, w.id = call ∧ w.pause = .handshake operation ∧
          m = .turn (.resume call)) := by
  cases h with
  | say notice hnotice =>
    rw [← List.mem_singleton.mp hsent, Notice.isIncidental, isOperational_of_isRequest hrequest]
      at hnotice
    exact absurd hnotice Bool.false_ne_true
  | ask call operation deadline refusal hmove hbegun hphase =>
    cases List.mem_singleton.mp hsent
    exact ⟨_, _, rfl, rfl, rfl, hphase, .inl ⟨hmove, hbegun.number, hbegun.phase ▸ hphase⟩⟩
  | goOn w operation deadline refusal hmove hwaiting hpause _ _ hphase =>
    cases List.mem_singleton.mp hsent
    exact ⟨_, _, rfl, rfl, rfl, hphase, .inr ⟨w, hwaiting, rfl, hpause, hmove⟩⟩
  | openLink =>
    simp at hsent
    obtain ⟨-, -, rfl, -⟩ := hsent
    exact absurd hrequest Bool.false_ne_true
  | updatePassphrase =>
    simp at hsent
    obtain ⟨-, -, rfl, -⟩ := hsent
    exact absurd hrequest Bool.false_ne_true
  | syncNetwork =>
    simp at hsent
    obtain ⟨-, -, rfl, -⟩ := hsent
    exact absurd hrequest Bool.false_ne_true
  | _ => simp at hsent

/-- The session that writes the request of a move. An operation that begins has seen to its proxy by
then. -/
def writer (s : Session) : Move → Session
  | .event (.call (.operate operation)) =>
    (({ session := { s with calls := s.calls + 1 } } : Act).prepare operation).session
  | _ => s

/-- A request is what the session that writes it advertises. -/
theorem exists_operation_of_move (hnumbered : Numbered (s.waiting.map (·.id)) s.calls)
    {caller : Option Nat} {target : Target} {packet : Packet} {refusal : Option SendError}
    (hsent : .posted caller target packet refusal ∈ (s.move m).told)
    (hrequest : isRequest packet = true) :
    ∃ call operation, caller = some call ∧ target = .relay ∧
      packet = operation.request (s.writer m).advertise ∧ s.phase ≠ .idle ∧
      (m = .event (.call (.operate operation)) ∧ call = s.calls ∨
        ∃ w ∈ s.waiting, w.id = call ∧ w.pause = .handshake operation) := by
  obtain ⟨before, after, htold⟩ := List.append_of_mem hsent
  obtain ⟨told, first, last, more, t, u, -, hstep, -, -⟩ := (steps_move s m).split htold
  obtain ⟨call, operation, rfl, rfl, -, hphase, hmove⟩ :=
    hstep.requests (List.mem_append_right _ List.mem_cons_self) hrequest
  -- The step knows the session only as it is in the middle of the move.
  have hoperate {a : Act} (hadvertise : a.session.advertise = (s.writer m).advertise)
      (hmem : .posted (some call) .relay packet refusal ∈ (a.operate call operation).told)
      (hquiet : .posted (some call) .relay packet refusal ∉ a.told) :
      packet = operation.request (s.writer m).advertise := by
    rcases Act.mem_told_operate call hmem with hmem | ⟨field, refused, heq⟩ | ⟨refused, heq⟩
    · exact absurd hmem hquiet
    · obtain ⟨-, -, rfl, -⟩ := Notice.posted.inj heq
      exact absurd hrequest Bool.false_ne_true
    · obtain ⟨-, -, rfl, -⟩ := Notice.posted.inj heq
      rw [hadvertise]
  rcases hmove with ⟨rfl, rfl, hlinked⟩ | ⟨w, hw, hid, hpause, rfl⟩
  · refine ⟨_, operation, rfl, rfl, ?_, hlinked, .inl ⟨rfl, rfl⟩⟩
    let a : Act := { session := { s with calls := s.calls + 1 } }
    have hsent : .posted (some s.calls) .relay packet refusal ∈
        (a.beginOperation s.calls operation).told := hsent
    rw [Act.beginOperation_eq, if_pos hlinked] at hsent
    refine hoperate rfl hsent fun hmem => ?_
    rcases Act.mem_told_prepare hmem with hmem | ⟨own, hown⟩
    · cases hmem
    · cases hown
  · rw [move] at hsent
    split at hsent
    · have hlooks := Act.looks call { session := { s with ready := s.ready.erase (.resume call) } }
      have hsent : .posted (some call) .relay packet refusal ∈
          (Act.resume { session := { s with ready := s.ready.erase (.resume call) } } call).told :=
        hsent
      generalize Session.verdict? _ call = verdict at hlooks
      generalize Act.resume _ call = b at hlooks hsent
      cases hlooks with
      | still => cases hsent
      | ends overlay hfind => simp [Act.finish, Act.tell, Act.endPause, Act.update] at hsent
      | @goesOn v latches index hfind =>
        obtain rfl : w = v := by
          have hown := hnumbered.find?_eq hw
          rw [hid] at hown
          exact Option.some.inj (hown.symm.trans hfind)
        rw [hpause, Act.goOn] at hsent
        split at hsent
        · rename_i hgreeted
          refine ⟨call, operation, rfl, rfl, ?_, hgreeted.1, .inr ⟨w, hw, hid, hpause⟩⟩
          refine hoperate ?_ hsent fun hmem => ?_
          · rw [Act.session_updatePassphrase]
            rfl
          · rcases Act.mem_told_updatePassphrase call hmem with hmem | ⟨field, refused, heq⟩
            · cases hmem
            · obtain ⟨-, -, rfl, -⟩ := Notice.posted.inj heq
              exact absurd hrequest Bool.false_ne_true
        · rcases Act.mem_told_giveUp call hsent with hmem | ⟨own, hown⟩ | ⟨outcome, houtcome⟩
          · cases hmem
          · cases hown
          · cases houtcome
    · cases hsent

/-- What a writer differs in from the session before the move. -/
theorem exists_writer_eq (s : Session) (m : Move) : ∃ networks idle ready hosted calls,
    s.writer m = { s with networks, idle, ready, hosted, calls } := by
  rw [writer.eq_def]
  split
  · rename_i operation
    obtain ⟨networks, idle, ready, hosted, hprepare⟩ :=
      ({ session := { s with calls := s.calls + 1 } } : Act).session_prepare operation
    rw [hprepare]
    exact ⟨networks, idle, ready, hosted, _, rfl⟩
  · exact ⟨s.networks, s.idle, s.ready, s.hosted, s.calls, rfl⟩

/-- Where proxies are forbidden no other one is hosted before a request is written. -/
theorem hosted_writer (hforbidden : s.p2p = false) (m : Move) :
    (s.writer m).hosted = s.hosted := by
  rw [writer.eq_def]
  split
  · rw [Act.hosted_prepare, Operation.hosted]
    simp [hforbidden]
  · rfl

/-- Where proxies are forbidden, a request is what the session would advertise before the move. -/
theorem exists_request_of_move (hnumbered : Numbered (s.waiting.map (·.id)) s.calls)
    (hforbidden : s.p2p = false) {caller : Option Nat} {target : Target}
    {packet : Packet} {refusal : Option SendError}
    (hsent : .posted caller target packet refusal ∈ (s.move m).told)
    (hrequest : isRequest packet = true) :
    ∃ call operation, caller = some call ∧ target = .relay ∧
      packet = operation.request s.advertise ∧ s.phase ≠ .idle ∧
      (m = .event (.call (.operate operation)) ∧ call = s.calls ∨
        ∃ w ∈ s.waiting, w.id = call ∧ w.pause = .handshake operation) := by
  have hsame : (s.writer m).advertise = s.advertise := by
    have hhosted := hosted_writer hforbidden m
    obtain ⟨networks, idle, ready, hosted, calls, hwriter⟩ := s.exists_writer_eq m
    rw [hwriter] at hhosted ⊢
    exact advertise_congr rfl hhosted rfl rfl rfl
  rw [← hsame]
  exact exists_operation_of_move hnumbered hsent hrequest

/-! ### Runs -/

/-- While proxies are forbidden, by the settings or since the relay has reported that it cannot
reach one, every request for a network belongs to a call that was begun before, and has its settings
and its advertised data. It is the caller's in everything but the game version just if no proxy is
hosted, or its place is not known or named in it already. A proxy that is hosted then is one from
before they were forbidden, so with proxies forbidden by the settings there is none. -/
theorem passed_on_iff_unhosted {settings : Settings} {interfaces : Interfaces}
    {localAddress : Except IoError Endpoint}
    (hcreate : create settings interfaces localAddress = .ok s) (moves : List Move)
    (hforbidden : settings.disableP2p = true ∨ (s.after moves).told.any Notice.forbids = true) :
    let t := (s.after moves).session
    (∀ m caller target packet refusal, .posted caller target packet refusal ∈ (t.move m).told →
      asksForNetwork packet = true →
      ∃ early operation profile, early ++ [.event (.call (.operate operation))] <+: moves ++ [m] ∧
        caller = some (s.after early).session.calls ∧ target = .relay ∧
        operation.profile? = some profile ∧ packet = operation.request t.advertise ∧
        (packet = operation.request t.rename ↔
          t.hosted = none ∨ ∀ ip port, t.place? = some (ip, port) → Names profile ip port)) ∧
    (∀ early rest, moves = early ++ rest →
      settings.disableP2p = true ∨ (s.after early).told.any Notice.forbids = true →
      Inherits (s.after early).session.hosted t.hosted) ∧
    (settings.disableP2p = true → t.hosted = none) := by
  intro t
  have hdenied {early : List Move}
      (h : settings.disableP2p = true ∨ (s.after early).told.any Notice.forbids = true) :
      (s.after early).session.p2p = false := by
    rw [p2p_after hcreate]
    rcases h with h | h
    · simp [h]
    · simp [h]
  have hinherits (early rest : List Move) (hmoves : moves = early ++ rest)
      (h : settings.disableP2p = true ∨ (s.after early).told.any Notice.forbids = true) :
      Inherits (s.after early).session.hosted t.hosted := by
    have hlater := (inherits_after (hdenied h) rest).2
    have hsplit := congrArg Act.session (s.after_append early rest)
    rw [← hmoves] at hsplit
    show Inherits _ (s.after moves).session.hosted
    rw [hsplit]
    exact hlater
  refine ⟨fun m caller target packet refusal hsent hasks => ?_, hinherits, fun hdisabled => ?_⟩
  · have ht : t.Sound := (sound_create hcreate).after moves
    obtain ⟨call, operation, rfl, rfl, rfl, hlinked, hcalled⟩ :=
      exists_request_of_move ht.numbered (hdenied hforbidden) hsent
        (isRequest_of_asksForNetwork hasks)
    have hopen : t.transportOpen = true := by
      rw [← Bool.not_eq_false]
      exact fun hclosed => hlinked ((coherent_after hcreate moves).idle_iff.mpr hclosed)
    obtain ⟨profile, hprofile⟩ := Operation.exists_profile hasks
    have hiff := (Operation.request_eq_iff hprofile t.advertise t.rename).trans
      (advertise_eq_rename_iff hopen profile)
    rcases hcalled with ⟨rfl, rfl⟩ | ⟨w, hw, rfl, hpause⟩
    · exact ⟨moves, operation, profile, List.prefix_rfl, rfl, rfl, hprofile, rfl, hiff⟩
    · have hnobody : s.waiting = [] := by
        obtain ⟨relay, rfl⟩ := create_eq hcreate
        rfl
      obtain ⟨early, hearly, hid⟩ := exists_call_of_handshake hnobody moves hw hpause
      exact ⟨early, operation, profile, hearly.trans (List.prefix_append _ _), congrArg some hid,
        rfl, hprofile, rfl, hiff⟩
  · have hnone : s.hosted = none := by
      obtain ⟨relay, rfl⟩ := create_eq hcreate
      rfl
    rw [← Option.not_isSome_iff_eq_none]
    intro hsome
    obtain ⟨host, hhost⟩ := Option.isSome_iff_exists.mp hsome
    obtain ⟨earlier, -, hearlier, -⟩ := hinherits [] moves rfl (.inl hdisabled) host hhost
    cases hnone.symm.trans hearlier

/-! ### A station on a local network -/

def sampleIp : Ip := .v4 (Block.ofBytes [192, 168, 1, 5])

/-- The sample session, with an address on a local network. -/
def lanSample : Session :=
  { sample with interfaces := .ok [sampleIp] }

theorem create_lanSample : create {} (.ok [sampleIp]) (.ok sampleAddress) = .ok lanSample := rfl

/-- Who asks for a public network, and what it says of itself. -/
def Notice.applicant? : Notice → Option (Option Nat × HostProfile)
  | posted caller .relay (.createPublic request []) _ => some (caller, request.profile)
  | _ => none

theorem exists_of_applicant? {told : List Notice} {caller : Option Nat} {profile : HostProfile}
    (hfound : told.findSome? Notice.applicant? = some (caller, profile)) :
    ∃ request refusal, .posted caller .relay (.createPublic request []) refusal ∈ told ∧
      request.profile = profile := by
  obtain ⟨notice, hmem, hnotice⟩ := List.exists_of_findSome?_eq_some hfound
  rw [Notice.applicant?.eq_def] at hnotice
  split at hnotice
  · obtain ⟨rfl, rfl⟩ := Prod.mk.inj (Option.some.inj hnotice)
    exact ⟨_, _, hmem, rfl⟩
  · cases hnotice

/-- A scan opens the link, and the relay reports that it cannot reach the station's proxy. -/
def warnedRun : List Move :=
  [sampleCall (.scan default), sampleDatagram (.hello default), .turn (.resume 0),
    sampleDatagram (.networkError .portUnreachable)]

/-- The station asks for a network afterwards, and its request is passed on as it is. -/
theorem passed_on_of_warnedRun :
    create {} (.ok [sampleIp]) (.ok sampleAddress) = .ok lanSample ∧
      (lanSample.after warnedRun).told.any Notice.forbids = true ∧
      ∃ (operation : Operation) (packet : Packet) (refusal : Option SendError),
        .posted (some 1) .relay packet refusal ∈
          ((lanSample.after warnedRun).session.move
            (sampleCall (.createPublic default []))).told ∧
        packet = operation.request (lanSample.after warnedRun).session.rename := by
  have hforbidden : (lanSample.after warnedRun).told.any Notice.forbids = true := by
    decide +kernel
  have hfound : ((lanSample.after warnedRun).session.move (sampleCall
      (.createPublic default []))).told.findSome? Notice.applicant? = some (some 1, default) := by
    decide +kernel
  obtain ⟨request, refusal, hsent, -⟩ := exists_of_applicant? hfound
  have hnone : (lanSample.after warnedRun).session.hosted = none :=
    Option.isNone_iff_eq_none.mp (by decide +kernel)
  obtain ⟨early, operation, profile, -, -, -, -, -, hiff⟩ :=
    (passed_on_iff_unhosted create_lanSample warnedRun (.inr hforbidden)).1 _ _ _ _ _ hsent rfl
  exact ⟨create_lanSample, hforbidden, operation, _, refusal, hsent, hiff.mpr (.inl hnone)⟩

/-- A network is created and its proxy hosted, and the relay reports that it cannot reach it. -/
def deniedRun : List Move :=
  creatingRun ++ [sampleDatagram (.connected default)] ++
    [.turn (.resume 0), sampleDatagram (.networkError .portUnreachable)]

/-- The station asks for another network, and advertises the old proxy. -/
theorem advertised_without_permission :
    create {} (.ok [sampleIp]) (.ok sampleAddress) = .ok lanSample ∧
      (lanSample.after deniedRun).told.any Notice.forbids = true ∧
      ∃ request refusal, .posted (some 1) .relay (.createPublic request []) refusal ∈
          ((lanSample.after deniedRun).session.move
            (sampleCall (.createPublic default []))).told ∧
        Names request.profile sampleIp 40000 ∧
        request.profile.privateIp ≠ (default : AccessPoint 0x94).profile.privateIp := by
  have hconfirmed : lanSample.after (creatingRun ++ [sampleDatagram (.connected default)]) = _ :=
    after_datagram lanSample creatingRun sample.relay (by decide +kernel) (by decide +kernel)
      (by decide +kernel) (by decide +kernel)
  have hforbidden : (lanSample.after deniedRun).told.any Notice.forbids = true := by
    rw [deniedRun, after_append, hconfirmed]
    decide +kernel
  have hfound : ((lanSample.after deniedRun).session.move (sampleCall
      (.createPublic default []))).told.findSome? Notice.applicant? = some (some 1,
        { (default : HostProfile) with
          privateIp := sampleIp.toField.1, family := .v4, internalPort := 40000 }) := by
    rw [deniedRun, after_append, hconfirmed]
    decide +kernel
  obtain ⟨request, refusal, hsent, hprofile⟩ := exists_of_applicant? hfound
  refine ⟨create_lanSample, hforbidden, request, refusal, hsent, ?_, ?_⟩
  · rw [hprofile]
    exact ⟨rfl, rfl, rfl, rfl⟩
  · rw [hprofile]
    decide

end LocalPlay.Session
