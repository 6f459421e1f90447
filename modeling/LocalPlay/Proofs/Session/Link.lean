import LocalPlay.Proofs.Session.Moment

/-!
# What the relay knows when it is asked

The relay can be asked once it has answered the handshake, and answers for the passphrase it was
told last on the link. Both are read off what has happened since the link was opened; `Linked` ties
them to the session's phase and to the passphrase it remembers.

An operation looks at neither. It only looks whether the link is idle, so it asks too early while
the handshake is still going on, and some operations never tell the passphrase on a link that is
open.
-/

namespace LocalPlay.Session

open Net Wire Overlay Timing

/-- The relay has answered the handshake on the open link. -/
def Greeted (history : List Notice) : Prop :=
  ∃ past, onLink history = some past ∧ ∃ sender identity, .handled sender (.hello identity) ∈ past

def Notice.isGreeting : Notice → Bool
  | handled _ (.hello _) => true
  | _ => false

/-- The passphrase this notice says the relay was to be told. -/
def Notice.offered? : Notice → Option (Block passphraseSize)
  | posted _ .relay (.passphrase field) _ => some field
  | _ => none

/-- The passphrase this notice says the relay was told. -/
def Notice.accepted? : Notice → Option (Block passphraseSize)
  | posted _ .relay (.passphrase field) none => some field
  | _ => none

/-- The passphrase the transport was last given for the relay on the open link. -/
def offered (history : List Notice) : Option (Block passphraseSize) :=
  (onLink history).bind (latest Notice.offered?)

/-- The passphrase the relay was told last on the open link. -/
def known (history : List Notice) : Option (Block passphraseSize) :=
  (onLink history).bind (latest Notice.accepted?)

/-- Everything but the handshake itself that an operation sends for its own sake. -/
def needsGreeting : Packet → Bool
  | .hello _ => false
  | packet => isOperational packet

/-- The notice changes what the history says of the link. -/
def Notice.isOfLink (notice : Notice) : Bool :=
  notice.isBoundary || notice.isGreeting || notice.offered?.isSome

theorem Notice.isOfLink_eq_false {notice : Notice} : notice.isOfLink = false ↔
    notice.isBoundary = false ∧ notice.isGreeting = false ∧ notice.offered? = none := by
  rw [isOfLink, Bool.or_eq_false_iff, Bool.or_eq_false_iff, Option.isSome_eq_false_iff,
    Option.isNone_iff_eq_none, and_assoc]

theorem Notice.isOfLink_of_incidental {notice : Notice} (hnotice : notice.isIncidental = true) :
    notice.isOfLink = false := by
  cases notice with
  | posted caller target packet refusal =>
    cases target with
    | peer endpoint => rfl
    | relay =>
      cases packet with
      | passphrase field => exact nomatch hnotice
      | _ => rfl
  | handled sender packet =>
    cases packet with
    | hello identity => exact nomatch hnotice
    | _ => rfl
  | opened => exact nomatch hnotice
  | closed => exact nomatch hnotice
  | _ => rfl

theorem isOfLink_request (operation : Operation) (advertise : HostProfile → HostProfile)
    (caller : Option Nat) (refusal : Option SendError) :
    (Notice.posted caller .relay (operation.request advertise) refusal).isOfLink = false := by
  cases operation with
  | _ => rfl

section Histories

variable {history more : List Notice}

theorem greeted_iff {past : List Notice} (hpast : onLink history = some past) :
    Greeted history ↔ ∃ sender identity, .handled sender (.hello identity) ∈ past := by
  rw [Greeted, hpast]
  constructor
  · rintro ⟨_, ⟨⟩, hgreeting⟩
    exact hgreeting
  · exact fun hgreeting => ⟨past, rfl, hgreeting⟩

theorem greeted_append (hmore : ∀ notice ∈ more, notice.isOfLink = false) :
    Greeted (history ++ more) ↔ Greeted history := by
  rw [Greeted, onLink_append fun notice hmem =>
    (Notice.isOfLink_eq_false.mp (hmore notice hmem)).1]
  constructor
  · rintro ⟨past, hpast, sender, identity, hmem⟩
    obtain ⟨before, hbefore, rfl⟩ := Option.map_eq_some_iff.mp hpast
    rcases List.mem_append.mp hmem with hmem | hmem
    · exact ⟨before, hbefore, sender, identity, hmem⟩
    · exact nomatch (Notice.isOfLink_eq_false.mp (hmore _ hmem)).2.1
  · rintro ⟨past, hpast, sender, identity, hmem⟩
    exact ⟨past ++ more, by rw [hpast]; rfl, sender, identity, List.mem_append_left _ hmem⟩

theorem offered_append (hmore : ∀ notice ∈ more, notice.isOfLink = false) :
    offered (history ++ more) = offered history := by
  rw [offered, onLink_append fun notice hmem => (Notice.isOfLink_eq_false.mp (hmore notice hmem)).1,
    offered]
  cases onLink history with
  | none => rfl
  | some past =>
    exact latest_append_of_silent fun notice hmem =>
      (Notice.isOfLink_eq_false.mp (hmore notice hmem)).2.2

theorem known_eq_offered (haccepted : ∀ caller field refusal,
    .posted caller .relay (.passphrase field) refusal ∈ history → refusal = none) :
    known history = offered history := by
  rw [known, offered]
  cases hlink : onLink history with
  | none => rfl
  | some past =>
    refine latest_congr fun notice hmem => ?_
    cases notice with
    | posted caller target packet refusal =>
      cases target with
      | peer endpoint => rfl
      | relay =>
        cases packet with
        | passphrase field =>
          obtain rfl := haccepted caller field refusal (mem_of_mem_onLink hlink hmem)
          rfl
        | _ => rfl
    | _ => rfl

end Histories

/-- What the history says of the link is what the session knows of it. -/
structure Linked (history : List Notice) (s : Session) : Prop where
  idle : s.phase = .idle ↔ onLink history = none
  greeted : s.phase = .connected ↔ Greeted history
  /-- A raised latch is a handshake on this link. -/
  handshake : s.phase = .connecting → s.latches.isRaised .handshake = false
  passphrase : s.passphraseSent.map passphraseField = offered history

namespace Linked

variable {history more : List Notice} {origin s t : Session} {m : Move}

theorem quiet (h : Linked history s) (hphase : t.phase = s.phase)
    (hlatch : t.latches.isRaised .handshake = true → s.latches.isRaised .handshake = true)
    (hsent : t.passphraseSent = s.passphraseSent)
    (hmore : ∀ notice ∈ more, notice.isOfLink = false) : Linked (history ++ more) t where
  idle := by
    rw [hphase, h.idle, onLink_append fun notice hmem =>
      (Notice.isOfLink_eq_false.mp (hmore notice hmem)).1]
    exact Option.map_eq_none_iff.symm
  greeted := by
    rw [hphase, greeted_append hmore]
    exact h.greeted
  handshake hconnecting := by
    rw [hphase] at hconnecting
    rw [Bool.eq_false_iff]
    exact fun hraised => Bool.eq_false_iff.mp (h.handshake hconnecting) (hlatch hraised)
  passphrase := by
    rw [hsent, offered_append hmore]
    exact h.passphrase

theorem step (h : Linked history s) (hstep : Step origin m s t more) :
    Linked (history ++ more) t := by
  cases hstep with
  | say notice hnotice =>
    exact h.quiet rfl id rfl (List.forall_mem_singleton.mpr (Notice.isOfLink_of_incidental hnotice))
  | openLink call operation deadline refusal hmove hbegun hphase =>
    have hlink :
        onLink (history ++ [.opened, .posted (some call) .relay (.hello s.identity) refusal]) =
          some [.posted (some call) .relay (.hello s.identity) refusal] := by
      rw [List.append_cons, onLink_concat, onLink_concat]
      rfl
    have hunsent : s.passphraseSent.map passphraseField = none := by
      rw [h.passphrase, offered, h.idle.mp hphase]
      rfl
    refine ⟨?_, ?_, ?_, ?_⟩
    · simp [hlink]
    · simp [greeted_iff hlink]
    · simp
    · rw [offered, hlink, hunsent]
      rfl
  | closeLink receiver hmove hnetwork =>
    have hlink : onLink (history ++ [.closed]) = none := onLink_concat ..
    refine ⟨?_, ?_, ?_, ?_⟩
    · simp [hlink]
    · simp [Greeted, hlink]
    · simp
    · rw [offered, hlink]
      rfl
  | updatePassphrase call refusal hphase hlink hnew hsame =>
    obtain ⟨past, hpast⟩ := Option.ne_none_iff_exists'.mp (hphase ∘ h.idle.mpr)
    have hnow : onLink (history ++ [.posted (some call) .relay
        (.passphrase (passphraseField s.passphrase)) refusal]) = some (past ++ [_]) :=
      onLink_concat_of_some hpast rfl
    refine ⟨?_, ?_, h.handshake, ?_⟩
    · simp [hnow, hphase]
    · rw [h.greeted, greeted_iff hpast, greeted_iff hnow]
      simp
    · rw [offered, hnow, Option.bind_some, latest_concat]
      rfl
  | greet sender identity hphase =>
    obtain ⟨past, hpast⟩ := Option.ne_none_iff_exists'.mp (hphase ∘ h.idle.mpr)
    have hnow : onLink (history ++ [.handled sender (.hello identity)]) = some (past ++ [_]) :=
      onLink_concat_of_some hpast rfl
    refine ⟨?_, ?_, ?_, ?_⟩
    · simp [hnow]
    · rw [greeted_iff hnow]
      exact ⟨fun _ => ⟨sender, identity, List.mem_append_right _ (List.mem_singleton_self _)⟩,
        fun _ => rfl⟩
    · simp
    · rw [h.passphrase, offered, offered, hpast, hnow, Option.bind_some, Option.bind_some,
        latest_concat]
      rfl
  | lower signal hsignal =>
    refine h.quiet rfl ?_ rfl (List.forall_mem_nil _)
    simp
  | raise signal hsignal =>
    refine h.quiet rfl ?_ rfl (List.forall_mem_nil _)
    simp [hsignal.1.symm]
  | ask call operation deadline refusal =>
    exact h.quiet rfl id rfl (List.forall_mem_singleton.mpr (isOfLink_request ..))
  | goOn w operation deadline refusal =>
    exact h.quiet rfl id rfl (List.forall_mem_singleton.mpr (isOfLink_request ..))
  | join sender info =>
    refine h.quiet rfl ?_ rfl ?_
    · simp
    · exact List.forall_mem_cons.mpr ⟨rfl, List.forall_mem_singleton.mpr rfl⟩
  | leave =>
    refine h.quiet rfl ?_ rfl (List.forall_mem_singleton.mpr rfl)
    simp
  | waste w =>
    refine h.quiet rfl ?_ rfl (List.forall_mem_nil _)
    simp
  | confirm w outcome =>
    refine h.quiet rfl ?_ rfl (List.forall_mem_singleton.mpr rfl)
    simp
  | confirmGuest w outcome =>
    refine h.quiet rfl ?_ rfl (List.forall_mem_nil _)
    simp
  | syncNetwork sender info refusal =>
    refine h.quiet rfl id rfl (List.forall_mem_cons.mpr ⟨rfl, List.forall_mem_cons.mpr ⟨rfl, ?_⟩⟩)
    exact List.forall_mem_singleton.mpr rfl
  | reject sender removal => exact h.quiet rfl id rfl (List.forall_mem_singleton.mpr rfl)
  | settle w => exact h.quiet rfl id rfl (List.forall_mem_singleton.mpr rfl)
  | _ => exact h.quiet rfl id rfl (List.forall_mem_nil _)

end Linked

theorem isOperational_of_needsGreeting {packet : Packet} (hpacket : needsGreeting packet = true) :
    isOperational packet = true := by
  cases packet with
  | hello identity => exact nomatch hpacket
  | _ => exact hpacket

/-- What a step that asks the relay for something has to go by: the phase in which the call found
the link, or the latch for which it waited. -/
theorem Step.asks {origin s t : Session} {m : Move} {more first last : List Notice}
    {caller : Option Nat} {packet : Packet} {refusal : Option SendError}
    (h : Step origin m s t more)
    (hmore : more = first ++ .posted caller .relay packet refusal :: last)
    (hpacket : needsGreeting packet = true) :
    first = [] ∧ s.phase ≠ .idle ∧ s.passphrase = origin.passphrase ∧
      ((∃ operation, m = .event (.call (.operate operation)) ∧ s.phase = origin.phase ∧
          (isRequest packet = true → s.passphraseSent =
            if operation.updatesFirst then some s.passphrase else origin.passphraseSent)) ∨
        (∃ call, m = .turn (.resume call)) ∧ s.latches.isRaised .handshake = true ∧
          (isRequest packet = true → s.passphraseSent = some s.passphrase)) := by
  have hmem : .posted caller .relay packet refusal ∈ more :=
    hmore ▸ List.mem_append_right _ List.mem_cons_self
  cases h with
  | ask call operation deadline refusal' hmove hbegun hphase hsame hsent =>
    exact ⟨(split_singleton hmore).1, hphase, hsame,
      .inl ⟨operation, hmove, hbegun.phase, fun _ => hsent⟩⟩
  | goOn w operation deadline refusal' hmove hwaiting hpause hended hcalls hphase hhandshake hraised
      hsame hsent =>
    exact ⟨(split_singleton hmore).1, hphase, hsame, .inr ⟨⟨_, hmove⟩, hhandshake, fun _ => hsent⟩⟩
  | updatePassphrase call refusal' hphase hlink hnew hsame =>
    obtain ⟨hfirst, hnotice⟩ := split_singleton hmore
    obtain ⟨-, -, rfl, -⟩ := Notice.posted.inj hnotice
    refine ⟨hfirst, hphase, hsame, ?_⟩
    rcases hlink with ⟨⟨operation, hmove⟩, hfound⟩ | ⟨hmove, hhandshake⟩
    · exact .inl ⟨operation, hmove, hfound, by simp [isRequest]⟩
    · exact .inr ⟨⟨_, hmove⟩, hhandshake, by simp [isRequest]⟩
  | say notice hnotice =>
    rw [(split_singleton hmore).2, Notice.isIncidental, isOperational_of_needsGreeting hpacket]
      at hnotice
    exact absurd hnotice Bool.false_ne_true
  | openLink =>
    have hhello : packet = .hello s.identity := by
      simp at hmem
      exact hmem.2.1
    rw [hhello] at hpacket
    exact absurd hpacket Bool.false_ne_true
  | syncNetwork sender info refusal' =>
    have hsync : packet = .syncNetwork info := by
      simp at hmem
      exact hmem.2.1
    rw [hsync] at hpacket
    exact absurd hpacket Bool.false_ne_true
  | _ => simp at hmem

/-- The notice is of something for the relay that needs the handshake. -/
def Notice.asks : Notice → Bool
  | posted _ .relay packet _ => needsGreeting packet
  | _ => false

/-- Everything that needs the handshake was sent after it. -/
def AskedWhenGreeted (history : List Notice) : Prop :=
  ∀ before caller packet refusal after,
    history = before ++ .posted caller .relay packet refusal :: after →
      needsGreeting packet = true → Greeted before

namespace Act

theorem exists_told_updatePassphrase (a : Act) (call : Nat) :
    ∃ more, (a.updatePassphrase call).told = a.told ++ more := by
  by_cases hsent : a.session.passphraseSent = some a.session.passphrase
  · exact ⟨[], by rw [updatePassphrase_of_sent hsent, List.append_nil]⟩
  · obtain ⟨refusal, hupdate⟩ := updatePassphrase_of_new hsent call
    exact ⟨_, congrArg Act.told hupdate⟩

theorem exists_request (a : Act) (call : Nat) (operation : Operation) :
    ∃ before caller packet refusal after,
      (a.operate call operation).told = before ++ .posted caller .relay packet refusal :: after ∧
        isRequest packet = true := by
  obtain ⟨deadline, refusal, hasked⟩ := (a.updatePassphrase call).asked_eq call operation
  obtain ⟨deadline', refusal', hasked'⟩ := a.asked_eq call operation
  obtain ⟨more, hmore⟩ := (a.asked call operation).exists_told_updatePassphrase call
  rw [operate_eq]
  cases operation with
  | scan filter => exact ⟨_, _, _, _, _, congrArg Act.told hasked, rfl⟩
  | createPrivate request advertised => exact ⟨_, _, _, _, _, congrArg Act.told hasked, rfl⟩
  | connectPublic request => exact ⟨_, _, _, _, _, congrArg Act.told hasked', rfl⟩
  | connectPrivate request => exact ⟨_, _, _, _, _, congrArg Act.told hasked', rfl⟩
  | createPublic request advertised =>
    have htold : ((a.asked call (.createPublic request advertised)).updatePassphrase call).told =
        a.told ++ .posted (some call) .relay ((Operation.createPublic request advertised).request
          a.session.advertise) refusal' :: more := by
      rw [hmore, hasked', List.append_assoc]
      rfl
    exact ⟨_, _, _, _, _, htold, rfl⟩

end Act

/-- An operation that finds the link open goes on to its request. -/
theorem exists_operate_of_open {s : Session} (hphase : s.phase ≠ .idle) (operation : Operation) :
    ∃ a : Act, a.session.passphrase = s.passphrase ∧
      s.move (.event (.call (.operate operation))) = a.operate s.calls operation := by
  let a : Act := ({ session := { s with calls := s.calls + 1 } } : Act).prepare operation
  obtain ⟨networks, idle, ready, hosted, hprepare⟩ :=
    ({ session := { s with calls := s.calls + 1 } } : Act).session_prepare operation
  have hopen : a.session.phase ≠ .idle := by
    rw [hprepare]
    exact hphase
  exact ⟨a, by rw [hprepare], if_pos hopen⟩

/-- An operation that finds the link open asks the relay at once. -/
theorem exists_request_of_open {s : Session} (hphase : s.phase ≠ .idle) (operation : Operation) :
    ∃ before caller packet refusal after,
      (s.move (.event (.call (.operate operation)))).told =
        before ++ .posted caller .relay packet refusal :: after ∧ isRequest packet = true := by
  obtain ⟨a, -, hoperate⟩ := exists_operate_of_open hphase operation
  rw [hoperate]
  exact a.exists_request ..

theorem needsGreeting_of_isRequest {packet : Packet} (hpacket : isRequest packet = true) :
    needsGreeting packet = true := by
  cases packet with
  | hello identity => exact nomatch hpacket
  | passphrase field => exact nomatch hpacket
  | _ => exact hpacket

theorem invariant_linked {settings : Settings} {interfaces : Interfaces}
    {localAddress : Except IoError Endpoint} {s : Session}
    (hcreate : create settings interfaces localAddress = .ok s) (moves : List Move) :
    Invariant s moves Linked where
  initial := by
    obtain ⟨relay, rfl⟩ := create_eq hcreate
    exact ⟨⟨fun _ => rfl, fun _ => rfl⟩, ⟨nofun, fun ⟨_, hpast, _⟩ => nomatch hpast⟩, nofun, rfl⟩
  step _ _ hlinked hstep := hlinked.step hstep

/-- The session is connected when the relay has answered the handshake on the open link. That
everything that needs this was sent after it holds of exactly the runs in which no operation was
called while the handshake was going on. -/
theorem asked_when_greeted_iff {settings : Settings} {interfaces : Interfaces}
    {localAddress : Except IoError Endpoint} {s : Session}
    (hcreate : create settings interfaces localAddress = .ok s) (moves : List Move) :
    ((s.after moves).session.phase = .connected ↔ Greeted (s.after moves).told) ∧
    (AskedWhenGreeted (s.after moves).told ↔
      ∀ early operation, early ++ [.event (.call (.operate operation))] <+: moves →
        (s.after early).session.phase ≠ .connecting) := by
  have hlinked := invariant_linked hcreate moves
  refine ⟨(hlinked.after List.prefix_rfl).greeted, ?_, ?_⟩
  · intro hasked early operation hmoves hconnecting
    have hopen : (s.after early).session.phase ≠ .idle := by
      rw [hconnecting]
      exact nofun
    obtain ⟨before, caller, packet, refusal, after, htold, hrequest⟩ :=
      exists_request_of_open hopen operation
    have hpacket := needsGreeting_of_isRequest hrequest
    obtain ⟨told, first, last, rest, t, u, hmoment, hstep, rfl⟩ :=
      exists_moment_of_move hmoves htold
    obtain ⟨rfl, -, -, hfound⟩ := hstep.asks rfl hpacket
    obtain ⟨more, hall⟩ := hmoment.exists_told_eq
    have hgreeted := hasked ((s.after early).told ++ told) caller packet refusal
      (last ++ rest ++ more) (hall.trans (by simp)) hpacket
    have hconnected := (hlinked.moment hmoment).greeted.mpr hgreeted
    rcases hfound with ⟨_, -, hphase, -⟩ | ⟨⟨_, hmove⟩, -⟩
    · rw [hphase, hconnecting] at hconnected
      exact nomatch hconnected
    · exact nomatch hmove
  · intro hcalls before caller packet refusal after htold hpacket
    obtain ⟨early, m, told, first, last, rest, t, u, hmoment, hstep, rfl⟩ := exists_moment htold
    obtain ⟨rfl, hopen, -, hfound⟩ := hstep.asks rfl hpacket
    have hmoment' := hlinked.moment hmoment
    rw [List.append_nil]
    refine hmoment'.greeted.mp ?_
    have hgreeted : t.phase ≠ .connecting := by
      rcases hfound with ⟨operation, rfl, hphase, -⟩ | ⟨-, hhandshake, -⟩
      · rw [hphase]
        exact hcalls early operation hmoment.isPrefix
      · intro hconnecting
        rw [hmoment'.handshake hconnecting] at hhandshake
        exact nomatch hhandshake
    cases hphase : t.phase with
    | idle => exact absurd hphase hopen
    | connecting => exact absurd hphase hgreeted
    | connected => rfl

/-- A scan opens the link, the relay answers, and the scan goes on. -/
def greetedRun : List Move :=
  [sampleCall (.scan default), sampleDatagram (.hello default), .turn (.resume 0)]

theorem eq_nil_of_call_in_greetedRun {early : List Move} {operation : Operation}
    (hmoves : early ++ [.event (.call (.operate operation))] <+: greetedRun) :
    early = [] ∧ operation = .scan default := by
  obtain ⟨rest, hrun⟩ := hmoves
  rcases early with _ | ⟨first, _ | ⟨second, _ | ⟨third, early⟩⟩⟩
  all_goals simp [greetedRun, sampleCall, sampleDatagram] at hrun
  exact ⟨rfl, hrun.1⟩

theorem asked_when_greeted_of_greetedRun :
    create {} (.ok []) (.ok sampleAddress) = .ok sample ∧
      (sample.after greetedRun).told.any Notice.asks = true ∧
      AskedWhenGreeted (sample.after greetedRun).told := by
  have hcreate : create {} (.ok []) (.ok sampleAddress) = .ok sample := rfl
  refine ⟨hcreate, by decide +kernel, (asked_when_greeted_iff hcreate greetedRun).2.mpr ?_⟩
  intro early operation hmoves
  obtain ⟨rfl, -⟩ := eq_nil_of_call_in_greetedRun hmoves
  exact nofun

/-- The relay does not answer, the first scan gives up, and the second does not wait. -/
theorem asked_without_greeting :
    let moves := [sampleCall (.scan default), .reach 4000, .turn (.resume 0),
      sampleCall (.scan default)]
    create {} (.ok []) (.ok sampleAddress) = .ok sample ∧
      ¬ AskedWhenGreeted (sample.after moves).told := by
  intro moves
  refine ⟨rfl, fun hasked => ?_⟩
  have hasks : (sample.after moves).told.any Notice.asks = true := by decide +kernel
  have hsilent : (sample.after moves).told.any Notice.isGreeting = false := by decide +kernel
  obtain ⟨notice, hmem, hnotice⟩ := List.any_eq_true.mp hasks
  obtain ⟨before, after, htold⟩ := List.append_of_mem hmem
  obtain ⟨caller, packet, refusal, rfl⟩ : ∃ caller packet refusal,
      notice = .posted caller .relay packet refusal := by
    cases notice with
    | posted caller target packet refusal =>
      cases target with
      | relay => exact ⟨caller, packet, refusal, rfl⟩
      | peer endpoint => exact nomatch hnotice
    | _ => exact nomatch hnotice
  obtain ⟨past, hpast, sender, identity, hgreeting⟩ := hasked before _ _ _ after htold hnotice
  have hgreeted : .handled sender (.hello identity) ∈ (sample.after moves).told := by
    rw [htold]
    exact List.mem_append_left _ (mem_of_mem_onLink hpast hgreeting)
  exact absurd rfl (List.any_eq_false.mp hsilent _ hgreeted)

/-- At every request the relay knows the passphrase that is set. -/
def KnownWhenRequested (s : Session) (moves : List Move) : Prop :=
  ∀ early m before caller packet refusal after, early ++ [m] <+: moves →
    ((s.after early).session.move m).told =
        before ++ .posted caller .relay packet refusal :: after →
      isRequest packet = true →
        known ((s.after early).told ++ before) =
          some (passphraseField (s.after early).session.passphrase)

/-- While the transport refuses no passphrase, the relay knows the current one at every request in
exactly the runs in which it knew it already whenever a network was asked for, on an open link, by
one of the operations that do not see to it first. -/
theorem known_when_requested_iff {settings : Settings} {interfaces : Interfaces}
    {localAddress : Except IoError Endpoint} {s : Session}
    (hcreate : create settings interfaces localAddress = .ok s) (moves : List Move)
    (haccepted : ∀ caller field refusal,
      .posted caller .relay (.passphrase field) refusal ∈ (s.after moves).told → refusal = none) :
    s.KnownWhenRequested moves ↔
      ∀ early operation, early ++ [.event (.call (.operate operation))] <+: moves →
        operation.updatesFirst = false → (s.after early).session.phase ≠ .idle →
          known (s.after early).told =
            some (passphraseField (s.after early).session.passphrase) := by
  have hlinked := invariant_linked hcreate moves
  -- All passphrases were accepted, so what the relay knows is what the session remembers.
  have hknown {early : List Move} {m : Move} {told rest : List Notice} {t : Session}
      (hmoment : Moment s moves early m told rest t) :
      known (s.after early).told = (s.after early).session.passphraseSent.map passphraseField ∧
        known ((s.after early).told ++ told) = t.passphraseSent.map passphraseField := by
    obtain ⟨more, hall⟩ := hmoment.exists_told_eq
    have hearly := hlinked.after ((List.prefix_append _ _).trans hmoment.isPrefix)
    rw [hearly.passphrase, (hlinked.moment hmoment).passphrase]
    constructor
    · refine known_eq_offered fun caller field refusal hmem => haccepted caller field refusal ?_
      rw [hall, List.append_assoc]
      exact List.mem_append_left _ hmem
    · refine known_eq_offered fun caller field refusal hmem => haccepted caller field refusal ?_
      rw [hall]
      exact List.mem_append_left _ hmem
  constructor
  · intro hrequests early operation hmoves hupdates hopen
    obtain ⟨before, caller, packet, refusal, after, htold, hrequest⟩ :=
      exists_request_of_open hopen operation
    have hthen := hrequests early _ before caller packet refusal after hmoves htold hrequest
    obtain ⟨told, first, last, rest, t, u, hmoment, hstep, rfl⟩ :=
      exists_moment_of_move hmoves htold
    obtain ⟨rfl, -, -, hfound⟩ := hstep.asks rfl (needsGreeting_of_isRequest hrequest)
    rw [List.append_nil, (hknown hmoment).2] at hthen
    rcases hfound with ⟨_, ⟨⟩, -, hsent⟩ | ⟨⟨_, hmove⟩, -⟩
    · have hsame : t.passphraseSent = (s.after early).session.passphraseSent := by
        rw [hsent hrequest, hupdates]
        rfl
      rw [(hknown hmoment).1, ← hsame]
      exact hthen
    · exact nomatch hmove
  · intro hcalls early m before caller packet refusal after hmoves htold hrequest
    obtain ⟨told, first, last, rest, t, u, hmoment, hstep, rfl⟩ :=
      exists_moment_of_move hmoves htold
    obtain ⟨rfl, hopen, hsame, hfound⟩ := hstep.asks rfl (needsGreeting_of_isRequest hrequest)
    rw [List.append_nil, (hknown hmoment).2]
    rcases hfound with ⟨operation, rfl, hphase, hsent⟩ | ⟨-, -, hsent⟩
    · rw [hsent hrequest]
      cases hupdates : operation.updatesFirst with
      | true =>
        rw [hsame]
        rfl
      | false =>
        have hearly := hcalls early operation hmoves hupdates (hphase ▸ hopen)
        rw [(hknown hmoment).1] at hearly
        exact hearly
    · rw [hsent hrequest, hsame]
      rfl

theorem accepted_of_all {history : List Notice}
    (hall : history.all (fun notice => notice.offered? = notice.accepted?) = true) :
    ∀ caller field refusal, .posted caller .relay (.passphrase field) refusal ∈ history →
      refusal = none := by
  intro caller field refusal hmem
  have hsame := of_decide_eq_true (List.all_eq_true.mp hall _ hmem)
  cases refusal with
  | none => rfl
  | some error => exact nomatch hsame

/-- After the handshake, and with it the passphrase, a station joins. -/
theorem known_when_requested_of_join :
    let moves := greetedRun ++ [sampleCall (.connectPublic default)]
    create {} (.ok []) (.ok sampleAddress) = .ok sample ∧
      (∀ caller field refusal, .posted caller .relay (.passphrase field) refusal ∈
        (sample.after moves).told → refusal = none) ∧
      sample.KnownWhenRequested moves := by
  intro moves
  have hcreate : create {} (.ok []) (.ok sampleAddress) = .ok sample := rfl
  have haccepted : ∀ caller field refusal, .posted caller .relay (.passphrase field) refusal ∈
      (sample.after moves).told → refusal = none := accepted_of_all (by decide +kernel)
  refine ⟨hcreate, haccepted, (known_when_requested_iff hcreate moves haccepted).mpr ?_⟩
  intro early operation hmoves hupdates _
  rcases List.prefix_concat_iff.mp hmoves with hlast | hmoves
  · obtain ⟨rfl, -⟩ := List.append_inj' hlast rfl
    decide +kernel
  · obtain ⟨-, rfl⟩ := eq_nil_of_call_in_greetedRun hmoves
    exact nomatch hupdates

/-- The same, but another passphrase is set before the station joins. -/
theorem unknown_when_requested_of_join :
    let moves := greetedRun ++ [.event (.setPassphrase "other"),
      sampleCall (.connectPublic default)]
    create {} (.ok []) (.ok sampleAddress) = .ok sample ∧
      (∀ caller field refusal, .posted caller .relay (.passphrase field) refusal ∈
        (sample.after moves).told → refusal = none) ∧
      ¬ sample.KnownWhenRequested moves := by
  intro moves
  refine ⟨rfl, accepted_of_all (by decide +kernel), fun hknown => ?_⟩
  let early := greetedRun ++ [.event (.setPassphrase "other")]
  have hopen : (sample.after early).session.phase ≠ .idle := by decide +kernel
  obtain ⟨before, caller, packet, refusal, after, htold, hrequest⟩ :=
    exists_request_of_open hopen (.connectPublic default)
  have hsole : ((sample.after early).session.move
      (sampleCall (.connectPublic default))).told.length = 1 := by decide +kernel
  have hstale : known (sample.after early).told ≠
      some (passphraseField (sample.after early).session.passphrase) := by decide +kernel
  have hthen := hknown early _ before caller packet refusal after List.prefix_rfl htold hrequest
  obtain rfl : before = [] := by
    rw [sampleCall, htold, List.length_append, List.length_cons] at hsole
    exact List.eq_nil_of_length_eq_zero (by omega)
  rw [List.append_nil] at hthen
  exact hstale hthen

end LocalPlay.Session
