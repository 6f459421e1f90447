import LocalPlay.Proofs.Overlay.Ledger
import LocalPlay.Proofs.Overlay.Workers
import LocalPlay.Proofs.Wire.Reassembly

/-!
# What is forwarded for a peer

Every seat has a worker of its own with a queue and a reassembler of its own, so what is routed for
a seat is a matter between the datagrams queued for it and a new reassembler: it is the traffic in
them, in order, each message once and under the address of the seat. It may fall short of that while
the queue is not empty or after the worker has ended, and never otherwise. What other peers send and
in which order workers get their turns is nowhere in this.

The invariant is `Lane`: what was queued for a worker is what it has read, followed by what is in
its inbox, and reading the former left its reassembler as it is. That a worker goes on as long as
its seat is there depends on how the host is run. It must be told to end only by jobs that the host
woke, `Prompted`, and the host wakes such jobs for seats alone that are given up.
-/

namespace LocalPlay.Overlay

open Net Wire

open Host (Move)

/-- The traffic that a new reassembler finds in datagrams, up to the first that makes no sense. -/
def trafficIn (datagrams : List Bytes) : List Traffic :=
  Traffic.ofFrames (Reassembly.empty.feedAll datagrams).frames

/-- It is the traffic in them read in one go. -/
theorem trafficIn_eq (datagrams : List Bytes) :
    trafficIn datagrams = Traffic.ofFrames (readStream datagrams.flatten).frames := by
  rw [trafficIn, Reassembly.feedAll_eq Reassembly.waits_empty]
  rfl

/-- What there is to route for a sender of these datagrams. -/
def sentBy (sender : UInt32) (datagrams : List Bytes) : List (UInt32 × Traffic) :=
  (trafficIn datagrams).map (sender, ·)

theorem sentBy_isPrefix (sender : UInt32) {datagrams more : List Bytes} (h : datagrams <+: more) :
    sentBy sender datagrams <+: sentBy sender more :=
  ((Reassembly.frames_feedAll_isPrefix .empty h).filterMap _).map _

theorem sentBy_concat (sender : UInt32) {datagrams : List Bytes}
    (h : (Reassembly.empty.feedAll datagrams).error = none) (datagram : Bytes) :
    sentBy sender (datagrams ++ [datagram]) = sentBy sender datagrams ++
      (Traffic.ofFrames ((Reassembly.empty.feedAll datagrams).next.feed datagram).frames).map
        (sender, ·) := by
  rw [sentBy, sentBy, trafficIn, trafficIn, Reassembly.feedAll_concat h, ← List.map_append]
  exact congrArg _ List.filterMap_append

/-! ### How far a worker has come -/

/-- What was queued for the worker of a seat, and what it has made of it. -/
inductive Lane (seat : Seat) (notices : List Notice) : Option Worker → Prop
  | working {worker : Worker} (read : List Bytes) (hseat : worker.seat = seat)
      (haccepted : acceptedBy seat.id notices = read ++ worker.inbox)
      (herror : (Reassembly.empty.feedAll read).error = none)
      (hstream : (Reassembly.empty.feedAll read).next = worker.stream)
      (hrouted : routedBy seat.id notices = sentBy seat.virtualIp read) :
    Lane seat notices (some worker)
  /-- It has ended, perhaps before it came to the end of its queue. -/
  | finished (read : List Bytes) (haccepted : read <+: acceptedBy seat.id notices)
      (hrouted : routedBy seat.id notices = sentBy seat.virtualIp read) :
    Lane seat notices none

namespace Lane

variable {seat : Seat} {notices more : List Notice} {worker? : Option Worker}

theorem hired (hquiet : Quiet seat.id notices) : Lane seat notices (some { seat }) :=
  .working [] rfl hquiet.accepted rfl rfl hquiet.routed

theorem quiet (h : Lane seat notices worker?) (hmore : Quiet seat.id more) :
    Lane seat (notices ++ more) worker? := by
  cases h with
  | working read hseat haccepted herror hstream hrouted =>
    refine .working read hseat ?_ herror hstream (hmore.routed_append.trans hrouted)
    rw [hmore.accepted_append, haccepted]
  | finished read haccepted hrouted =>
    refine .finished read ?_ (hmore.routed_append.trans hrouted)
    rw [hmore.accepted_append]
    exact haccepted

/-- A worker that ends leaves what it has not read. -/
theorem ended {worker : Worker} (h : Lane seat notices (some worker)) : Lane seat notices none := by
  cases h with
  | working read hseat haccepted herror hstream hrouted =>
    refine .finished read ?_ hrouted
    rw [haccepted]
    exact List.prefix_append _ _

theorem queued {worker : Worker} (h : Lane seat notices (some worker)) {datagram : Bytes}
    (haccepted : acceptedBy seat.id more = [datagram]) (hrouted : routedBy seat.id more = []) :
    Lane seat (notices ++ more) (some { worker with inbox := worker.inbox ++ [datagram] }) := by
  cases h with
  | working read hseat hbefore herror hstream hforwarded =>
    refine .working read hseat ?_ herror hstream ?_
    · rw [acceptedBy_append, hbefore, haccepted, List.append_assoc]
    · rw [routedBy_append, hrouted, List.append_nil, hforwarded]

/-- The oldest datagram of the inbox is read, and it makes sense. -/
theorem read {worker : Worker} (h : Lane seat notices (some worker)) {datagram : Bytes}
    {inbox : List Bytes} (hinbox : worker.inbox = datagram :: inbox)
    (herror : (worker.stream.feed datagram).error = none) (haccepted : acceptedBy seat.id more = [])
    (hrouted : routedBy seat.id more =
      (Traffic.ofFrames (worker.stream.feed datagram).frames).map (worker.seat.virtualIp, ·)) :
    Lane seat (notices ++ more)
      (some { worker with inbox, stream := (worker.stream.feed datagram).next }) := by
  cases h with
  | working read hseat hbefore hfine hstream hforwarded =>
    have hfed := Reassembly.feedAll_concat hfine datagram
    rw [hstream] at hfed
    refine .working (read ++ [datagram]) hseat ?_ ?_ ?_ ?_
    · rw [acceptedBy_append, haccepted, List.append_nil, hbefore, hinbox, List.append_assoc]
      rfl
    · rw [hfed]
      exact herror
    · rw [hfed]
    · rw [routedBy_append, hforwarded, hrouted, sentBy_concat _ hfine, hstream, hseat]

/-- The oldest datagram of the inbox is read, and the worker ends on it. -/
theorem failed {worker : Worker} (h : Lane seat notices (some worker)) {datagram : Bytes}
    {inbox : List Bytes} (hinbox : worker.inbox = datagram :: inbox)
    (haccepted : acceptedBy seat.id more = [])
    (hrouted : routedBy seat.id more =
      (Traffic.ofFrames (worker.stream.feed datagram).frames).map (worker.seat.virtualIp, ·)) :
    Lane seat (notices ++ more) none := by
  cases h with
  | working read hseat hbefore hfine hstream hforwarded =>
    refine .finished (read ++ [datagram]) ⟨inbox, ?_⟩ ?_
    · rw [acceptedBy_append, haccepted, List.append_nil, hbefore, hinbox, List.append_assoc]
      rfl
    · rw [routedBy_append, hforwarded, hrouted, sentBy_concat _ hfine, hstream, hseat]

theorem next {host : Host} {move : Move} {scene : Scene}
    (h : Lane seat notices (host.worker? seat.id)) (htended : host.Tended seat.id move scene) :
    Lane seat (notices ++ scene.notices) (scene.host.worker? seat.id) := by
  cases htended with
  | alone hquiet hafter =>
    rw [hafter]
    exact h.quiet hquiet
  | told hmove hquiet hbefore hafter =>
    rw [hbefore] at h
    rw [hafter]
    cases h.quiet hquiet with
    | working read hseat haccepted herror hstream hrouted =>
      exact .working read hseat haccepted herror hstream hrouted
  | ended hdismissed hquiet hbefore hafter =>
    rw [hbefore] at h
    rw [hafter]
    exact (h.quiet hquiet).ended
  | queued haccepted hrouted hbefore hafter =>
    rw [hbefore] at h
    rw [hafter]
    exact h.queued haccepted hrouted
  | read hinbox herror haccepted hrouted hbefore hafter =>
    rw [hbefore] at h
    rw [hafter]
    exact h.read hinbox herror haccepted hrouted
  | failed hinbox haccepted hrouted hbefore hafter =>
    rw [hbefore] at h
    rw [hafter]
    exact h.failed hinbox haccepted hrouted

theorem isPrefix (h : Lane seat notices worker?) :
    routedBy seat.id notices <+: sentBy seat.virtualIp (acceptedBy seat.id notices) := by
  cases h with
  | working read hseat haccepted herror hstream hrouted =>
    rw [hrouted, haccepted]
    exact sentBy_isPrefix _ (List.prefix_append _ _)
  | finished read haccepted hrouted =>
    rw [hrouted]
    exact sentBy_isPrefix _ haccepted

end Lane

/-! ### Every seat that was given away -/

/-- Each seat that was given away has its lane; numbers not given yet have none. -/
structure Staffed (c : Chronicle) : Prop where
  fresh : ∀ id, c.host.grants ≤ id → c.host.worker? id = none ∧ Quiet id c.notices
  lanes : ∀ applicant token seat, .admitted applicant token seat ∈ c.notices →
    seat.id < c.host.grants ∧ Lane seat c.notices (c.host.worker? seat.id)

theorem Host.Tended.of_none {host : Host} {seat : Nat} {move : Move} {scene : Scene}
    (h : host.Tended seat move scene) (hnone : host.worker? seat = none) :
    Quiet seat scene.notices ∧ scene.host.worker? seat = none := by
  cases h with
  | alone hquiet hafter => exact ⟨hquiet, hafter.trans hnone⟩
  | told _ _ hbefore => exact absurd (hnone.symm.trans hbefore) nofun
  | ended _ _ hbefore => exact absurd (hnone.symm.trans hbefore) nofun
  | queued _ _ hbefore => exact absurd (hnone.symm.trans hbefore) nofun
  | read _ _ _ _ hbefore => exact absurd (hnone.symm.trans hbefore) nofun
  | failed _ _ _ hbefore => exact absurd (hnone.symm.trans hbefore) nofun

namespace Staffed

variable {c : Chronicle}

/-- When a seat is given away nothing was said of a worker of it. -/
theorem quiet_of_admitted (h : Staffed c) {move : Move} {applicant : Nat} {token : ProxyToken}
    {seat : Seat} (hmem : .admitted applicant token seat ∈ (c.host.move move).notices) :
    Quiet seat.id (c.notices ++ (c.host.move move).notices) := by
  have hadmitted := mem_admissions.mpr hmem
  rcases c.host.move_cases move with hquiet | ⟨_, link, other, claim, _, _, hclaim, hscene⟩
  · rw [hquiet.admissions] at hadmitted
    exact nomatch hadmitted
  · rw [hscene, Host.admissions_letIn, List.mem_singleton] at hadmitted
    obtain ⟨-, -, rfl⟩ := hadmitted
    rw [hscene]
    apply Quiet.append (h.fresh claim.seat.id ?_).2 (Host.quiet_letIn link other claim)
    exact Nat.le_of_eq (Registry.id_of_claim? hclaim).symm

/-- Nobody is admitted. -/
theorem kept (h : Staffed c) (hseated : c.host.Seated) {move : Move}
    (hquiet : c.host.WithoutGrant move (c.host.move move)) : Staffed (c.next move) := by
  have htended (seat : Nat) := Host.tended hseated seat hquiet
  have hgrants : (c.next move).host.grants = c.host.grants := hquiet.grants
  refine ⟨fun id hid => ?_, fun applicant token seat hmem => ?_⟩
  · rw [hgrants] at hid
    obtain ⟨hnone, hsilent⟩ := h.fresh id hid
    obtain ⟨hmore, hafter⟩ := (htended id).of_none hnone
    exact ⟨hafter, hsilent.append hmore⟩
  · rcases List.mem_append.mp hmem with hold | hnew
    · obtain ⟨hbelow, hlane⟩ := h.lanes applicant token seat hold
      rw [hgrants]
      exact ⟨hbelow, hlane.next (htended seat.id)⟩
    · have hadmitted := mem_admissions.mpr hnew
      rw [hquiet.admissions] at hadmitted
      exact nomatch hadmitted

/-- An applicant is let in. -/
theorem letIn (h : Staffed c) {move : Move} {link : Link} {applicant : Applicant}
    {claim : Registry.Claim}
    (hclaim : c.host.registry.claim? c.host.grants applicant.endpoint applicant.presented =
      some claim)
    (hscene : c.host.move move = c.host.letIn link applicant claim) : Staffed (c.next move) := by
  have hid : claim.seat.id = c.host.grants := Registry.id_of_claim? hclaim
  have hgrants : (c.next move).host.grants = c.host.grants + 1 := congrArg (·.host.grants) hscene
  have hsilent (seat : Nat) : Quiet seat (c.host.move move).notices := by
    rw [hscene]
    exact Host.quiet_letIn link applicant claim
  have hworker (seat : Nat) : (c.next move).host.worker? seat = (c.host.worker? seat).or
      (if claim.seat.id = seat then some { seat := claim.seat } else none) := by
    rw [← Host.worker?_letIn link applicant claim, ← hscene]
    rfl
  have hothers {seat : Nat} (hne : claim.seat.id ≠ seat) :
      (c.next move).host.worker? seat = c.host.worker? seat := by
    rw [hworker, if_neg hne, Option.or_none]
  refine ⟨fun id hnew => ?_, fun other token seat hmem => ?_⟩
  · obtain ⟨hnone, hbefore⟩ := h.fresh id (by omega)
    rw [hothers (by omega)]
    exact ⟨hnone, hbefore.append (hsilent id)⟩
  · rcases List.mem_append.mp hmem with hold | hnew
    · obtain ⟨hbelow, hlane⟩ := h.lanes other token seat hold
      rw [hothers (by omega)]
      exact ⟨by omega, hlane.quiet (hsilent seat.id)⟩
    · have hquiet := h.quiet_of_admitted hnew
      have hadmitted := mem_admissions.mpr hnew
      rw [hscene, Host.admissions_letIn, List.mem_singleton] at hadmitted
      obtain ⟨-, -, rfl⟩ := hadmitted
      obtain ⟨hnone, -⟩ := h.fresh claim.seat.id (by omega)
      refine ⟨by omega, ?_⟩
      rw [hworker, hnone, Option.none_or, if_pos rfl]
      exact .hired hquiet

theorem next (h : Staffed c) (hseated : c.host.Seated) (move : Move) : Staffed (c.next move) := by
  rcases c.host.move_cases move with hquiet | ⟨_, link, applicant, claim, _, _, hclaim, hscene⟩
  · exact h.kept hseated hquiet
  · exact h.letIn hclaim hscene

end Staffed

section Run

variable {authWait : Nat} {moves : List Move}

theorem seated_ofMoves (authWait : Nat) (moves : List Move) :
    (Chronicle.ofMoves authWait moves).host.Seated := by
  induction moves using List.reverseRecOn with
  | nil => exact Host.seated_of_empty rfl
  | append_singleton moves move ih =>
    rw [Chronicle.host_concat]
    exact ih.move move

theorem staffed_ofMoves (authWait : Nat) (moves : List Move) :
    Staffed (Chronicle.ofMoves authWait moves) := by
  induction moves using List.reverseRecOn with
  | nil => exact ⟨fun _ _ => ⟨rfl, .nil⟩, fun _ _ _ => nofun⟩
  | append_singleton moves move ih =>
    rw [Chronicle.ofMoves_concat]
    exact ih.next (seated_ofMoves authWait moves) move

/-! ### Every moment -/

/-- No move both queues something for a worker and routes something for it. -/
theorem Host.one_sided {host : Host} (hseated : host.Seated) (move : Move) (seat : Nat) :
    acceptedBy seat (host.move move).notices = [] ∨
      routedBy seat (host.move move).notices = [] := by
  rcases host.move_cases move with hquiet | ⟨_, link, applicant, claim, _, _, _, hscene⟩
  · cases Host.tended hseated seat hquiet with
    | alone hquiet => exact .inl hquiet.accepted
    | told _ hquiet => exact .inl hquiet.accepted
    | ended _ hquiet => exact .inl hquiet.accepted
    | queued _ hrouted => exact .inr hrouted
    | read _ _ haccepted => exact .inl haccepted
    | failed _ haccepted => exact .inl haccepted
  · rw [hscene]
    exact .inl (Host.quiet_letIn link applicant claim).accepted

/-- What holds before and after a move holds in the middle of it. -/
theorem isPrefix_within {seat : Seat} {notices more part : List Notice} (hpart : part <+: more)
    (hone : acceptedBy seat.id more = [] ∨ routedBy seat.id more = [])
    (hbefore : routedBy seat.id notices <+:
      sentBy seat.virtualIp (acceptedBy seat.id notices))
    (hafter : routedBy seat.id (notices ++ more) <+:
      sentBy seat.virtualIp (acceptedBy seat.id (notices ++ more))) :
    routedBy seat.id (notices ++ part) <+:
      sentBy seat.virtualIp (acceptedBy seat.id (notices ++ part)) := by
  rcases hone with haccepted | hrouted
  · have hnone : acceptedBy seat.id part = [] := filterMap_eq_nil_of_isPrefix hpart haccepted
    have hmoment := (List.prefix_append_right_inj notices).mpr hpart
    rw [acceptedBy_append, haccepted, List.append_nil] at hafter
    rw [acceptedBy_append, hnone, List.append_nil]
    exact (hmoment.filterMap _).trans hafter
  · have hnone : routedBy seat.id part = [] := filterMap_eq_nil_of_isPrefix hpart hrouted
    rw [routedBy_append, hnone, List.append_nil, acceptedBy_append]
    exact hbefore.trans (sentBy_isPrefix _ (List.prefix_append _ _))

/-- At every moment, also in the middle of a move, what was routed for a seat is the beginning of
what was there to route. -/
theorem routed_isPrefix {past : List Notice} {applicant : Nat} {token : ProxyToken} {seat : Seat}
    (hpast : past <+: (Chronicle.ofMoves authWait moves).notices)
    (hseat : .admitted applicant token seat ∈ (Chronicle.ofMoves authWait moves).notices) :
    routedBy seat.id past <+: sentBy seat.virtualIp (acceptedBy seat.id past) := by
  induction moves using List.reverseRecOn with
  | nil => exact nomatch hseat
  | append_singleton moves move ih =>
    have hlater := staffed_ofMoves authWait (moves ++ [move])
    have hafter := (hlater.lanes applicant token seat hseat).2.isPrefix
    have hbefore := staffed_ofMoves authWait moves
    have hone := Host.one_sided (seated_ofMoves authWait moves) move seat.id
    rw [Chronicle.notices_concat] at hpast hseat hafter
    generalize Chronicle.ofMoves authWait moves = c at *
    rcases List.mem_append.mp hseat with hold | hnew
    · have hstart := List.prefix_append c.notices (c.host.move move).notices
      rcases List.prefix_or_prefix_of_prefix hpast hstart with hle | ⟨part, rfl⟩
      · exact ih hle hold
      · have hpart := (List.prefix_append_right_inj c.notices).mp hpast
        have hnow := (hbefore.lanes applicant token seat hold).2.isPrefix
        exact isPrefix_within hpart hone hnow hafter
    · -- Up to its admission nothing was said of the worker of the seat.
      have hquiet := hbefore.quiet_of_admitted hnew
      have hnone : routedBy seat.id past = [] := filterMap_eq_nil_of_isPrefix hpast hquiet.routed
      rw [hnone]
      exact List.nil_prefix

/-! ### Who is told to end -/

/-- The job was woken by a move of the run. -/
def Woken (authWait : Nat) (moves : List Move) (job : Job) : Prop :=
  ∃ early move, early ++ [move] <+: moves ∧
    job ∈ ((Chronicle.ofMoves authWait early).host.move move).jobs

theorem woken_concat {move : Move} {job : Job} :
    Woken authWait (moves ++ [move]) job ↔ Woken authWait moves job ∨
      job ∈ ((Chronicle.ofMoves authWait moves).host.move move).jobs := by
  constructor
  · rintro ⟨early, last, hearly, hjob⟩
    rcases List.prefix_concat_iff.mp hearly with heq | hearly
    · obtain ⟨rfl, hlast⟩ := List.append_inj' heq rfl
      obtain rfl := List.singleton_inj.mp hlast
      exact .inr hjob
    · exact .inl ⟨early, last, hearly, hjob⟩
  · rintro (⟨early, last, hearly, hjob⟩ | hjob)
    · exact ⟨early, last, hearly.trans (List.prefix_append _ _), hjob⟩
    · exact ⟨moves, move, List.prefix_rfl, hjob⟩

/-- Workers are told to end only by jobs that the host woke. -/
def Prompted (authWait : Nat) (moves : List Move) : Prop :=
  ∀ before move after, moves = before ++ move :: after →
    ∀ now link id, move = .perform now link (.dismiss id) → Woken authWait before (.dismiss id)

theorem prompted_concat {move : Move} :
    Prompted authWait (moves ++ [move]) ↔ Prompted authWait moves ∧
      ∀ now link id, move = .perform now link (.dismiss id) →
        Woken authWait moves (.dismiss id) :=
  forall_split_concat

/-- A worker that is to be told to end has lost its seat for good. -/
theorem ne_of_woken {id : Nat} (h : Woken authWait moves (.dismiss id)) :
    let host := (Chronicle.ofMoves authWait moves).host
    id < host.grants ∧ ∀ seat ∈ host.registry.seats, seat.id ≠ id := by
  induction moves using List.reverseRecOn with
  | nil =>
    obtain ⟨early, move, hearly, -⟩ := h
    simp at hearly
  | append_singleton moves move ih =>
    intro host
    have hseated := seated_ofMoves authWait moves
    have hhost : host = ((Chronicle.ofMoves authWait moves).host.move move).host :=
      Chronicle.host_concat authWait moves move
    have hgrants := (Chronicle.ofMoves authWait moves).host.grants_le_move move
    rw [hhost]
    rcases woken_concat.mp h with hold | hnew
    · obtain ⟨hbelow, hgone⟩ := ih hold
      refine ⟨Nat.lt_of_lt_of_le hbelow hgrants, fun seat hseat => ?_⟩
      rcases Host.seat_or_new hseat with hseat | hid
      · exact hgone seat hseat
      · rw [hid]
        exact Nat.ne_of_gt hbelow
    · obtain ⟨⟨seat, hseat, rfl⟩, hgone⟩ := hseated.dismissals move hnew
      have hbelow := hseated.below seat.id (List.mem_map_of_mem hseat)
      exact ⟨Nat.lt_of_lt_of_le hbelow hgrants, hgone⟩

/-- A worker that is not told to end goes on as long as its seat is there. -/
theorem Host.Tended.exists_worker {host : Host} {seat : Seat} {move : Move} {scene : Scene}
    (h : host.Tended seat.id move scene) {worker : Worker}
    (hworker : host.worker? seat.id = some worker) (hworking : worker.dismissed = false)
    (htold : ∀ now link, move ≠ .perform now link (.dismiss seat.id))
    (hseat : seat ∈ scene.host.registry.seats) :
    ∃ worker, scene.host.worker? seat.id = some worker ∧ worker.dismissed = false := by
  have hsame {other : Worker} (hbefore : host.worker? seat.id = some other) : other = worker :=
    Option.some.inj (hbefore.symm.trans hworker)
  cases h with
  | alone _ hafter => exact ⟨worker, hafter.trans hworker, hworking⟩
  | told hmove => exact absurd hmove (htold _ _)
  | ended hdismissed _ hbefore =>
    obtain rfl := hsame hbefore
    simp [hworking] at hdismissed
  | queued _ _ hbefore hafter =>
    obtain rfl := hsame hbefore
    exact ⟨_, hafter, hworking⟩
  | read _ _ _ _ hbefore hafter =>
    obtain rfl := hsame hbefore
    exact ⟨_, hafter, hworking⟩
  | failed _ _ _ _ _ hgone => exact absurd rfl (hgone seat hseat)

/-- As long as a seat is there its worker goes on. -/
theorem Prompted.exists_worker (h : Prompted authWait moves) :
    let host := (Chronicle.ofMoves authWait moves).host
    ∀ seat ∈ host.registry.seats,
      ∃ worker, host.worker? seat.id = some worker ∧ worker.dismissed = false := by
  induction moves using List.reverseRecOn with
  | nil => exact fun _ => nofun
  | append_singleton moves move ih =>
    obtain ⟨hmoves, hlast⟩ := prompted_concat.mp h
    have hseated := seated_ofMoves authWait moves
    have hfresh := (staffed_ofMoves authWait moves).fresh
    have hworkers := ih hmoves
    have hwoken {id : Nat} (hid : Woken authWait moves (.dismiss id)) := (ne_of_woken hid).2
    rw [Chronicle.host_concat]
    generalize (Chronicle.ofMoves authWait moves).host = host at *
    intro after seat hseat
    rcases host.move_cases move with hquiet | ⟨_, link, applicant, claim, _, _, hclaim, hscene⟩
    · have hold := hquiet.seats.subset hseat
      obtain ⟨worker, hworker, hworking⟩ := hworkers seat hold
      apply (Host.tended hseated seat.id hquiet).exists_worker hworker hworking ?_ hseat
      intro now link hmove
      exact hwoken (hlast now link seat.id hmove) seat hold rfl
    · have hafter : after.worker? seat.id = (host.worker? seat.id).or
          (if claim.seat.id = seat.id then some { seat := claim.seat } else none) := by
        rw [← Host.worker?_letIn link applicant claim, ← hscene]
      rw [hafter]
      rcases Host.seat_or_new hseat with hold | hid
      · obtain ⟨worker, hworker, hworking⟩ := hworkers seat hold
        rw [hworker, Option.some_or]
        exact ⟨worker, rfl, hworking⟩
      · obtain ⟨hnone, -⟩ := hfresh seat.id (Nat.le_of_eq hid.symm)
        have hnew : claim.seat.id = seat.id := (Registry.id_of_claim? hclaim).trans hid.symm
        rw [hnone, Option.none_or, if_pos hnew]
        exact ⟨_, rfl, rfl⟩

/-- The host is run as it asks for, the seat is there, and its worker has nothing left to read. -/
structure CaughtUp (authWait : Nat) (moves : List Move) (seat : Seat) : Prop where
  prompted : Prompted authWait moves
  seated : seat ∈ (Chronicle.ofMoves authWait moves).host.registry.seats
  drained : ∀ worker ∈ (Chronicle.ofMoves authWait moves).host.workers,
    worker.seat = seat → worker.inbox = []

theorem CaughtUp.routed_eq {seat : Seat} (h : CaughtUp authWait moves seat) :
    let notices := (Chronicle.ofMoves authWait moves).notices
    routedBy seat.id notices = sentBy seat.virtualIp (acceptedBy seat.id notices) ∧
      (Reassembly.empty.feedAll (acceptedBy seat.id notices)).error = none := by
  intro notices
  obtain ⟨applicant, token, hadmitted⟩ := Chronicle.exists_admitted h.seated
  obtain ⟨worker, hworker, -⟩ := h.prompted.exists_worker seat h.seated
  have hlane := ((staffed_ofMoves authWait moves).lanes applicant token seat hadmitted).2
  rw [hworker] at hlane
  cases hlane with
  | working read hseat haccepted herror hstream hrouted =>
    rw [h.drained worker (List.mem_of_find?_eq_some hworker) hseat, List.append_nil] at haccepted
    rw [haccepted]
    exact ⟨hrouted, herror⟩

end Run

/-- Whatever moves a host makes and in whatever order, at every moment the traffic that was routed
for a seat begins what a new reassembler finds in the datagrams queued for it, in order, each
message once and under the address of the seat. It is all of that as long as the seat is there and
its worker has nothing left to read. So in two runs, with other peers who send other things and with
workers that get their turns otherwise, what is routed for a peer who sent the same is the same, or
one is not as far as the other. -/
theorem forwarded_in_order {authWait : Nat} {moves : List Move} {applicant : Nat}
    {token : ProxyToken} {seat : Seat}
    (hseat : .admitted applicant token seat ∈ (Chronicle.ofMoves authWait moves).notices) :
    let notices := (Chronicle.ofMoves authWait moves).notices
    (∀ past, past <+: notices →
      routedBy seat.id past <+: sentBy seat.virtualIp (acceptedBy seat.id past)) ∧
    (CaughtUp authWait moves seat →
      routedBy seat.id notices = sentBy seat.virtualIp (acceptedBy seat.id notices) ∧
        (Reassembly.empty.feedAll (acceptedBy seat.id notices)).error = none) ∧
    ∀ wait others newcomer ticket twin,
      let those := (Chronicle.ofMoves wait others).notices
      .admitted newcomer ticket twin ∈ those → twin.virtualIp = seat.virtualIp →
        acceptedBy twin.id those = acceptedBy seat.id notices →
          (routedBy seat.id notices <+: routedBy twin.id those ∨
            routedBy twin.id those <+: routedBy seat.id notices) ∧
          (CaughtUp authWait moves seat → CaughtUp wait others twin →
            routedBy seat.id notices = routedBy twin.id those) := by
  intro notices
  refine ⟨fun past hpast => routed_isPrefix hpast hseat, fun h => h.routed_eq, ?_⟩
  intro wait others newcomer ticket twin those htwin haddress haccepted
  refine ⟨?_, fun h hother => ?_⟩
  · have hown := routed_isPrefix List.prefix_rfl hseat
    have hother := routed_isPrefix List.prefix_rfl htwin
    rw [haddress, haccepted] at hother
    exact List.prefix_or_prefix_of_prefix hown hother
  · rw [h.routed_eq.1, hother.routed_eq.1, haddress, haccepted]

/-- Two peers send at once, one of them a packet in two pieces, and the other leaves. -/
theorem forwarded_in_order_of_two :
    let token (ip : UInt32) : ProxyToken := ⟨ip, .zero, .zero, .v4⟩
    let endpoint (port : UInt16) : Endpoint := { ip := .v4 .zero, port }
    let offer : ProxyOffer := { ip := .zero, family := .v4, port := 0, token := .zero }
    let link : Link := fun _ _ => none
    let addressing (port : UInt16) : Addressing := ⟨0, port, 2, 80, 6⟩
    let bytes (port : UInt16) : Bytes :=
      (Packet.proxyConnect (addressing port)).encode.toOption.getD []
    let early : List Move := [.addToken (token 1), .addToken (token 2),
      .apply 0 (endpoint 7) offer, .apply 0 (endpoint 8) offer, .perform 0 link (.consider 0),
      .perform 0 link (.consider 1), .receive (endpoint 7) ((bytes 7).take 20),
      .receive (endpoint 8) (bytes 8), .perform 0 link (.serve 1), .perform 0 link (.serve 0),
      .receive (endpoint 7) ((bytes 7).drop 20), .perform 0 link (.serve 0)]
    let moves := early ++ [.unregister link (endpoint 8)] ++ [.perform 0 link (.dismiss 1)]
    let seat : Seat := ⟨0, endpoint 7, 1⟩
    CaughtUp 1000 moves seat ∧
      routedBy 0 (Chronicle.ofMoves 1000 moves).notices = [(1, .connect (addressing 7))] := by
  intro token endpoint offer link addressing bytes early moves seat
  have hearly : Prompted 1000 (early ++ [.unregister link (endpoint 8)]) := by
    rintro before move after hsplit now other id rfl
    have hmem : .perform now other (.dismiss id) ∈ early ++ [.unregister link (endpoint 8)] :=
      hsplit.symm ▸ List.mem_append_right before List.mem_cons_self
    simp [early] at hmem
  have hprompted : Prompted 1000 moves := by
    refine prompted_concat.mpr ⟨hearly, ?_⟩
    rintro _ _ _ ⟨⟩
    exact ⟨early, .unregister link (endpoint 8), List.prefix_rfl, by decide +kernel⟩
  have hcaught : CaughtUp 1000 moves seat :=
    ⟨hprompted, by decide +kernel, by decide +kernel⟩
  have hadmitted : .admitted 0 (token 1) seat ∈ (Chronicle.ofMoves 1000 moves).notices :=
    mem_admissions.mp (by decide +kernel)
  obtain ⟨-, hall, -⟩ := forwarded_in_order hadmitted
  refine ⟨hcaught, (hall hcaught).1.trans ?_⟩
  decide +kernel

end LocalPlay.Overlay
