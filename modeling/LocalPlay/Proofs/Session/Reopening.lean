import LocalPlay.Proofs.Overlay.Sending
import LocalPlay.Proofs.Session.Coherence
import LocalPlay.Proofs.Session.Link
import LocalPlay.Proofs.Session.Patience

/-!
# How transports begin

A session opens one transport after the other: when it was stopped, was idle for too long, or its
socket failed, the next operation opens a new one. The relay is to know the node again, so the
first packet on a transport is the handshake, with the identity that was handled last on any of
them.

Only an operation that finds the link closed opens it, and it tells the relay who the node is
before anything else can happen. What the session remembers of its identity is what the history
says, `Step.identity_eq`. No other handshake is ever sent: the session has only this one to send,
and of the packets that the hosted proxy sends over the same transport none is a handshake.
-/

namespace LocalPlay.Session

open Net Wire Overlay Timing

def Notice.isOpening : Notice → Bool
  | opened => true
  | _ => false

/-- The identity this notice says was handled. -/
def Notice.greeting? : Notice → Option Identity
  | handled _ (.hello identity) => some identity
  | _ => none

/-- The identity this notice says was handed to the transport, by the session or its proxy. -/
def Notice.introduction? : Notice → Option Identity
  | posted _ _ (.hello identity) _ | host (.posted _ (.hello identity) _) => some identity
  | _ => none

/-- The identity that was handled last, all zero if none was. -/
def lastGreeting (history : List Notice) : Identity :=
  (latest Notice.greeting? history).getD ⟨Block.zero, Block.zero⟩

variable {origin s t : Session} {m : Move} {history more : List Notice}

/-! ### Histories -/

theorem lastGreeting_append (hsilent : ∀ notice ∈ more, notice.greeting? = none) :
    lastGreeting (history ++ more) = lastGreeting history := by
  rw [lastGreeting, latest_append_of_silent hsilent, lastGreeting]

theorem lastGreeting_concat (history : List Notice) (sender : Endpoint) (identity : Identity) :
    lastGreeting (history ++ [.handled sender (.hello identity)]) = identity := by
  rw [lastGreeting, latest_concat]
  rfl

theorem Notice.greeting?_of_incidental {notice : Notice} (hnotice : notice.isIncidental = true) :
    notice.greeting? = none := by
  cases notice with
  | handled sender packet =>
    cases packet with
    | hello identity => cases hnotice
    | _ => rfl
  | _ => rfl

/-- A transport that was opened and not closed is still there. -/
theorem exists_onLink_of_not_closed (earlier : List Notice) {between : List Notice}
    (hopen : .closed ∉ between) : ∃ past, onLink (earlier ++ .opened :: between) = some past := by
  induction between using List.reverseRecOn with
  | nil => exact ⟨[], onLink_concat earlier .opened⟩
  | append_singleton between last ih =>
    simp only [List.mem_append, List.mem_singleton, not_or] at hopen
    obtain ⟨past, hpast⟩ := ih hopen.1
    have hlast : onLink (earlier ++ .opened :: (between ++ [last])) = last.onLink (some past) := by
      rw [← hpast, ← onLink_concat, List.append_assoc, List.cons_append]
    rw [hlast]
    cases last with
    | closed => exact absurd rfl hopen.2
    | opened => exact ⟨[], rfl⟩
    | _ => exact ⟨past ++ [_], rfl⟩

/-! ### The identity a session remembers -/

theorem Step.identity_eq (h : Step origin m s t more) (hs : s.identity = lastGreeting history) :
    t.identity = lastGreeting (history ++ more) := by
  have hsilent (hsame : t.identity = s.identity)
      (hmore : ∀ notice ∈ more, notice.greeting? = none) :
      t.identity = lastGreeting (history ++ more) := by
    rw [lastGreeting_append hmore, hsame, hs]
  cases h with
  | greet sender identity => rw [lastGreeting_concat]
  | say notice hnotice =>
    apply hsilent rfl
    simp [Notice.greeting?_of_incidental hnotice]
  | _ =>
    apply hsilent rfl
    simp [Notice.greeting?]

/-- What a session takes for its identity is what was handled last. -/
theorem identity_after {settings : Settings} {interfaces : Interfaces}
    {localAddress : Except IoError Endpoint}
    (hcreate : create settings interfaces localAddress = .ok s) (moves : List Move) :
    (s.after moves).session.identity = lastGreeting (s.after moves).told := by
  have hidentity : Invariant s moves fun history s => s.identity = lastGreeting history := by
    constructor
    · obtain ⟨relay, rfl⟩ := create_eq hcreate
      rfl
    · intro early m told more rest t u _ _ ht hstep
      exact hstep.identity_eq ht
  exact hidentity.after List.prefix_rfl

/-! ### The move that opens a transport -/

theorem Step.of_opened (h : Step origin m s t more) (hopened : .opened ∈ more) :
    ∃ operation, m = .event (.call (.operate operation)) ∧ origin.phase = .idle := by
  cases h with
  | openLink call operation deadline refusal hmove hbegun hphase =>
    exact ⟨operation, hmove, hbegun.phase.symm.trans hphase⟩
  | say notice hnotice =>
    obtain rfl := List.mem_singleton.mp hopened
    cases hnotice
  | _ => simp at hopened

theorem Steps.of_opened (h : Steps origin m s t more) (hopened : .opened ∈ more) :
    ∃ operation, m = .event (.call (.operate operation)) ∧ origin.phase = .idle := by
  induction h with
  | refl => cases hopened
  | tail hsteps hstep ih =>
    rcases List.mem_append.mp hopened with hopened | hopened
    · exact ih hopened
    · exact hstep.of_opened hopened

namespace Act

theorem told_refreshIdle (a : Act) : a.refreshIdle.told = a.told := by
  rw [refreshIdle]
  dsimp only
  split
  · rfl
  · rfl

/-- All that is told before a call looks at the link is what a proxy loses that is replaced. -/
theorem told_prepare (a : Act) (operation : Operation) :
    ∃ notices : List Overlay.Notice,
      (a.prepare operation).told = a.told ++ notices.map .host := by
  have hproxy (a : Act) :
      ∃ notices : List Overlay.Notice, a.hostProxy.told = a.told ++ notices.map .host := by
    rw [hostProxy]
    split
    · obtain ⟨ready, notices, hdispose⟩ := a.disposeHost_eq
      rw [hdispose]
      exact ⟨notices, rfl⟩
    · exact ⟨[], (List.append_nil _).symm⟩
  cases operation with
  | scan filter =>
    refine ⟨[], ?_⟩
    rw [prepare, List.map_nil, List.append_nil]
    split
    · rfl
    · rw [told_refreshIdle]
      rfl
  | createPublic request advertised => exact hproxy _
  | createPrivate request advertised => exact hproxy _
  | connectPublic request => exact ⟨[], (List.append_nil _).symm⟩
  | connectPrivate request => exact ⟨[], (List.append_nil _).symm⟩

theorem told_giveUp (a : Act) (call : Nat) (operation : Operation) :
    ∃ (notices : List Overlay.Notice) (outcome : Outcome),
      (a.giveUp call operation).told = a.told ++ notices.map .host ++ [.finished call outcome] := by
  obtain ⟨ready, notices, hdispose⟩ := a.disposeHost_eq
  have htold := congrArg Act.told hdispose
  cases operation with
  | scan filter => exact ⟨[], _, by rw [List.map_nil, List.append_nil]; rfl⟩
  | createPublic request advertised => exact ⟨notices, _, congrArg (· ++ [_]) htold⟩
  | createPrivate request advertised => exact ⟨notices, _, congrArg (· ++ [_]) htold⟩
  | connectPublic request => exact ⟨[], _, by rw [List.map_nil, List.append_nil]; rfl⟩
  | connectPrivate request => exact ⟨[], _, by rw [List.map_nil, List.append_nil]; rfl⟩

/-- The handshake always fits a packet, so only a broken way to the relay keeps it back. -/
theorem told_openLink (a : Act) (call : Nat) (operation : Operation) :
    (a.openLink call operation).told = a.told ++ [.opened, .posted (some call) .relay
      (.hello a.session.identity) ((a.session.faults.at? .relay).map .io)] := by
  have hlength : (Packet.hello a.session.identity).payload.length = Identity.layout.size :=
    Identity.lawful_layout.length_encode _
  have hsize : headerSize + (Packet.hello a.session.identity).payload.length < packetLimit := by
    rw [hlength]
    decide
  have hencode := Packet.encode_eq_ok_iff.mpr ⟨hsize, rfl⟩
  simp [openLink, pause, update, tell, post, lower, link, hencode]

end Act

/-- An operation that opens a transport says nothing else but what a proxy loses before. -/
theorem move_of_opening {between rest : List Notice}
    (hmove : (s.move m).told = between ++ .opened :: rest) :
    s.phase = .idle ∧ ∃ operation, m = .event (.call (.operate operation)) ∧
      (∃ notices : List Overlay.Notice, between = notices.map .host) ∧
      rest = [.posted (some s.calls) .relay (.hello s.identity)
        ((s.faults.at? .relay).map .io)] := by
  have hopened : .opened ∈ (s.move m).told := by simp [hmove]
  obtain ⟨operation, rfl, hidle⟩ := (steps_move s m).of_opened hopened
  refine ⟨hidle, operation, rfl, ?_⟩
  let a : Act := { session := { s with calls := s.calls + 1 } }
  have hbegin : s.move (.event (.call (.operate operation))) =
      a.beginOperation s.calls operation := rfl
  obtain ⟨notices, hprepare⟩ := a.told_prepare operation
  rw [hbegin, Act.beginOperation_eq, if_neg (not_not_intro hidle)] at hopened hmove
  split at hmove
  · rename_i hfault
    obtain ⟨more, outcome, hgiveUp⟩ := ((a.prepare operation).update fun s =>
      { s with receiver := .absent }).told_giveUp s.calls operation
    rw [if_pos hfault, hgiveUp, Act.update, hprepare] at hopened
    simp [a] at hopened
  · obtain ⟨networks, idle, ready, hosted, hsession⟩ := a.session_prepare operation
    rw [Act.told_openLink, hprepare, hsession, List.nil_append] at hmove
    rcases split_append hmove with ⟨_, hproxy, -⟩ | ⟨first, rfl, hlink⟩
    · have hmem : Notice.opened ∈ notices.map .host := by simp [hproxy]
      simp at hmem
    · rcases first with _ | ⟨head, first⟩
      · obtain ⟨-, rfl⟩ := List.cons_eq_cons.mp hlink
        exact ⟨⟨notices, List.append_nil _⟩, rfl⟩
      · obtain ⟨-, hrest⟩ := List.cons_eq_cons.mp hlink
        cases (split_singleton hrest).2

/-! ### What the hosted proxy sends -/

/-- What is told of the hosted proxy was told by moves of it, but for what it lost. -/
def Act.HostMoves (a : Act) : Prop :=
  ∀ notice, (Notice.host notice).isPlain = false → .host notice ∈ a.told →
    ∃ host move, notice ∈ (Host.move host move).notices

namespace Act.HostMoves

variable {a b : Act}

theorem plain (h : a.HostMoves) (hplain : a.Plain b) : b.HostMoves := by
  obtain ⟨more, hmore, hnotices⟩ := hplain.told
  intro notice hnotice hmem
  rw [hmore] at hmem
  rcases List.mem_append.mp hmem with hmem | hmem
  · exact h notice hnotice hmem
  · rw [hnotices _ hmem] at hnotice
    cases hnotice

theorem adopt (h : a.HostMoves) (host : Host) (move : Host.Move) :
    (a.adopt (host.move move)).HostMoves := by
  obtain ⟨ready, hadopt⟩ := a.adopt_eq (host.move move)
  rw [hadopt]
  intro notice hnotice hmem
  rcases List.mem_append.mp hmem with hmem | hmem
  · exact h notice hnotice hmem
  · obtain ⟨own, hown, hsame⟩ := List.mem_map.mp hmem
    obtain rfl := Notice.host.inj hsame
    exact ⟨host, move, hown⟩

theorem handle (h : a.HostMoves) (sender : Endpoint) (packet : Packet) :
    (a.handle sender packet).HostMoves := by
  have htold : (a.tell (.handled sender packet)).HostMoves := by
    intro notice hnotice hmem
    simp only [tell, List.mem_append, List.mem_singleton, reduceCtorEq, or_false] at hmem
    exact h notice hnotice hmem
  cases hmove : a.session.hostMove? sender packet with
  | none => exact htold.plain (Act.plain_handle hmove)
  | some move =>
    rw [Act.handle_of_hostMove? hmove, Act.atHost]
    split
    · exact htold.adopt _ move
    · exact htold

end Act.HostMoves

theorem hostMoves_move (s : Session) (m : Move) : (s.move m).HostMoves := by
  have hnone (t : Session) : ({ session := t } : Act).HostMoves := by
    intro notice _ hmem
    cases hmem
  rcases s.move_cases m with
    hplain | ⟨sender, bytes, -, -, hreceive⟩ | ⟨job, host, -, -, -, hjob⟩
  · exact (hnone s).plain hplain
  · rw [hreceive]
    rcases ({ session := s } : Act).receive_cases sender bytes with ⟨host, -, hadopt⟩ | hpackets
    · rw [hadopt]
      exact (hnone s).adopt host _
    · rw [hpackets]
      refine List.foldlRecOn (motive := Act.HostMoves) _ _ (hnone _) fun b hb packet _ => ?_
      exact hb.handle sender packet
  · rw [hjob]
    exact (hnone _).adopt host (.perform _ _ job)

theorem not_speech_hello (identity : Identity) : ¬ Host.Speech (.hello identity) := by
  intro hspeech
  generalize hpacket : Packet.hello identity = packet at hspeech
  cases hspeech with
  | assigned config => cases hpacket
  | gone ip => cases hpacket
  | traffic traffic =>
    cases traffic with
    | _ => cases hpacket

/-! ### Every handshake begins a transport -/

theorem Step.of_introduction {first last : List Notice} {caller : Option Nat} {target : Target}
    {identity : Identity} {refusal : Option SendError} (h : Step origin m s t more)
    (hmore : more = first ++ .posted caller target (.hello identity) refusal :: last) :
    first = [.opened] := by
  have hmem : .posted caller target (.hello identity) refusal ∈ more := by simp [hmore]
  cases h with
  | openLink call operation deadline refusal' =>
    rcases first with _ | ⟨head, rest⟩
    · cases hmore
    · obtain ⟨rfl, hrest⟩ := List.cons_eq_cons.mp hmore
      rw [(split_singleton hrest).1]
  | say notice hnotice =>
    obtain rfl := List.mem_singleton.mp hmem
    cases hnotice
  | ask call operation =>
    cases operation with
    | _ => simp [Operation.request] at hmem
  | goOn w operation =>
    cases operation with
    | _ => simp [Operation.request] at hmem
  | _ => simp at hmem

/-- Right before a handshake is sent a transport was opened. -/
theorem opened_before_introduction {moves : List Move} {before after : List Notice}
    {notice : Notice} {identity : Identity} (htold : (s.after moves).told = before ++ notice :: after)
    (hnotice : notice.introduction? = some identity) : ∃ earlier, before = earlier ++ [.opened] := by
  cases notice with
  | posted caller target packet refusal =>
    cases packet with
    | hello own =>
      obtain ⟨early, m, told, first, last, rest, t, u, -, hstep, rfl⟩ := exists_moment htold
      obtain rfl := hstep.of_introduction rfl
      exact ⟨(s.after early).told ++ told, (List.append_assoc ..).symm⟩
    | _ => cases hnotice
  | host notice =>
    obtain ⟨early, m, between, rest, -, -, hmove⟩ := told_origin htold
    cases notice with
    | posted target packet refusal =>
      cases packet with
      | hello own =>
        have hmem : .host (.posted target (.hello own) refusal) ∈
            ((s.after early).session.move m).told := by
          rw [hmove]
          exact List.mem_append_right _ List.mem_cons_self
        obtain ⟨host, move, hsaid⟩ := hostMoves_move _ m _ rfl hmem
        exact absurd (Host.speech_move hsaid rfl) (not_speech_hello own)
      | _ => cases hnotice
    | _ => cases hnotice
  | _ => cases hnotice

/-- After anything but an opening no handshake is sent until the next transport is opened. -/
theorem not_introduced_until_opening {moves : List Move} {before rest : List Notice}
    {last : Notice} (htold : (s.after moves).told = before ++ last :: rest)
    (hlast : last.isOpening = false) :
    ∀ notice ∈ rest.takeWhile (!·.isOpening), notice.introduction? = none := by
  intro notice hmem
  by_contra hintroduced
  obtain ⟨identity, hnotice⟩ := Option.ne_none_iff_exists'.mp hintroduced
  obtain ⟨first, more, hsplit⟩ := List.append_of_mem hmem
  obtain ⟨later, hrest⟩ : ∃ later, rest = first ++ notice :: more ++ later :=
    ⟨_, by rw [← hsplit, List.takeWhile_append_dropWhile]⟩
  have hwhole : (s.after moves).told =
      (before ++ last :: first) ++ notice :: (more ++ later) := by
    rw [htold, hrest]
    simp
  obtain ⟨earlier, hearlier⟩ := opened_before_introduction hwhole hnotice
  have hbetween : .opened ∈ last :: first := by
    apply List.mem_of_getLast?
    have hend := congrArg List.getLast? hearlier
    rwa [List.getLast?_append_cons, List.getLast?_concat] at hend
  rcases List.mem_cons.mp hbetween with rfl | hopened
  · cases hlast
  · have hclosed : Notice.opened ∈ rest.takeWhile (!·.isOpening) := by
      rw [hsplit]
      exact List.mem_append_left _ hopened
    cases List.all_eq_true.mp List.all_takeWhile _ hclosed

/-- Every transport is opened by an operation, when the one before is closed and its receive loop
is over. The first packet on it is the handshake, with the identity that was handled last on any
transport before, all zero if there was none; only a broken way to the relay keeps it back. No
other handshake is sent until the next transport is opened. -/
theorem introduced_on_opening {settings : Settings} {interfaces : Interfaces}
    {localAddress : Except IoError Endpoint}
    (hcreate : create settings interfaces localAddress = .ok s) (moves : List Move)
    {before after : List Notice} (htold : (s.after moves).told = before ++ .opened :: after) :
    (∀ earlier between, before = earlier ++ .opened :: between → .closed ∈ between) ∧
    ∃ early operation rest, early ++ [.event (.call (.operate operation))] <+: moves ∧
      let t := (s.after early).session
      t.transportOpen = false ∧ (t.receiver = .absent ∨ t.receiver = .ended) ∧
      after = .posted (some t.calls) .relay (.hello (lastGreeting before))
        ((t.faults.at? .relay).map .io) :: rest ∧
      ∀ notice ∈ rest.takeWhile (!·.isOpening), notice.introduction? = none := by
  obtain ⟨early, m, _, rest, hmoves, rfl, hmove⟩ := told_origin htold
  obtain ⟨hidle, operation, rfl, ⟨notices, rfl⟩, rfl⟩ := move_of_opening hmove
  have hclosed : onLink ((s.after early).told ++ notices.map .host) = none := by
    have hearly := (invariant_linked hcreate moves).after ((List.prefix_append _ _).trans hmoves)
    rw [onLink_append (by simp [Notice.isBoundary]), hearly.idle.mp hidle, Option.map_none]
  have hidentity : (s.after early).session.identity =
      lastGreeting ((s.after early).told ++ notices.map .host) := by
    rw [lastGreeting_append (by simp [Notice.greeting?]), identity_after hcreate]
  have hafter : ∃ later, after = .posted (some (s.after early).session.calls) .relay
      (.hello (s.after early).session.identity)
      (((s.after early).session.faults.at? .relay).map .io) :: later := by
    obtain ⟨later, rfl⟩ := hmoves
    rw [after_append, after_concat, Act.followedBy, Act.next, Act.followedBy, hmove] at htold
    simp only [List.append_assoc, List.cons_append, List.nil_append] at htold
    obtain ⟨-, hrest⟩ := List.cons_eq_cons.mp (List.append_cancel_left
      (List.append_cancel_left htold))
    exact ⟨_, hrest.symm⟩
  obtain ⟨rest, rfl⟩ := hafter
  refine ⟨fun earlier between hbefore => ?_, early, operation, rest, hmoves, ?_, ?_, ?_, ?_⟩
  · by_contra hopen
    obtain ⟨past, hpast⟩ := exists_onLink_of_not_closed earlier hopen
    rw [← hbefore, hclosed] at hpast
    cases hpast
  · exact (coherent_after hcreate early).idle_iff.mp hidle
  · exact ((sound_create hcreate).after early).alert.closed hidle
  · rw [hidentity]
  · exact not_introduced_until_opening (htold.trans (List.append_cons ..)) rfl

def sampleIdentity : Identity := ⟨.ofBytes [1], .ofBytes [2]⟩

/-- A scan opens a transport, the relay answers with an identity, and the session is stopped. -/
def stoppedRun : List Move :=
  [sampleCall (.scan default), sampleDatagram (.hello sampleIdentity), .turn (.resume 0),
    .event (.call .stop), .turn .cleanup]

/-- The next scan opens another one, and the relay is told that identity. -/
theorem introduced_on_opening_of_stoppedRun :
    let moves := stoppedRun ++ [sampleCall (.scan default)]
    create {} (.ok []) (.ok sampleAddress) = .ok sample ∧
      ∃ earlier between after,
        (sample.after moves).told = (earlier ++ .opened :: between) ++ .opened :: after ∧
        .closed ∈ between ∧
        ∃ caller refusal rest, after = .posted caller .relay (.hello sampleIdentity) refusal :: rest ∧
          ∀ notice ∈ rest.takeWhile (!·.isOpening), notice.introduction? = none := by
  intro moves
  have hcreate : create {} (.ok []) (.ok sampleAddress) = .ok sample := rfl
  have htold : (sample.after moves).told = (sample.after stoppedRun).told ++
      .opened :: [.posted (some 2) .relay (.hello sampleIdentity) none] := by
    rw [after_concat, Act.next, Act.followedBy]
    rfl
  have hgreeting : lastGreeting (sample.after stoppedRun).told = sampleIdentity := by
    decide +kernel
  obtain ⟨between, hbetween⟩ : ∃ between, (sample.after stoppedRun).told = .opened :: between :=
    ⟨_, rfl⟩
  obtain ⟨hclosed, early, operation, rest, -, -, -, hafter, hrest⟩ :=
    introduced_on_opening hcreate moves htold
  rw [hgreeting] at hafter
  exact ⟨hcreate, [], between, _, htold.trans (by rw [hbetween]; rfl), hclosed [] between hbetween,
    _, _, rest, hafter, hrest⟩

end LocalPlay.Session
