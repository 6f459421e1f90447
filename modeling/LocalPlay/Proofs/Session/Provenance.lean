import LocalPlay.Proofs.Session.Moves
import LocalPlay.Proofs.Session.Streams
import Mathlib.Data.List.Induction

/-!
# Where the tokens of seated peers come from

Every peer in the seats of the hosted proxy was let in on a token, every token came in a packet, and
every packet in datagrams of its sender. `Traced` says this of a session together with all that was
told so far: whatever is in the session has its origin in the history, and what is in the history
has its origin before it. Plain stretches cannot touch it; the rest are moves of the proxy and
datagrams.

That the sender of a token is the relay is not part of it, and cannot be: `handle` takes a token from
anyone.
-/

namespace LocalPlay.Session

open Net Wire Overlay Timing

/-- The datagram a move brings from an endpoint, as far as it fits the buffer. -/
def Move.datagram? (sender : Endpoint) : Move → Option Bytes
  | event (.datagram source bytes) =>
    if source = sender then some (bytes.take receiveLimit) else none
  | _ => none

/-- All that came from an endpoint. -/
def received (moves : List Move) (sender : Endpoint) : List Bytes :=
  moves.filterMap (Move.datagram? sender)

/-- Before every admission someone sent the token. -/
def Backed (history : List Notice) : Prop :=
  ∀ before applicant token seat after,
    history = before ++ .host (.admitted applicant token seat) :: after →
      ∃ sender, .handled sender (.proxyToken token) ∈ before

theorem Backed.append {history more : List Notice} (h : Backed history)
    (hmore : ∀ applicant token seat, .host (.admitted applicant token seat) ∈ more →
      ∃ sender, .handled sender (.proxyToken token) ∈ history) : Backed (history ++ more) := by
  intro before applicant token seat after hsplit
  rcases List.append_eq_append_iff.mp hsplit with ⟨between, rfl, rfl⟩ | ⟨between, rfl, htail⟩
  · obtain ⟨sender, hmem⟩ := hmore applicant token seat
      (List.mem_append_right _ List.mem_cons_self)
    exact ⟨sender, List.mem_append_left _ hmem⟩
  · cases between with
    | nil =>
      rw [List.nil_append] at htail
      obtain ⟨sender, hmem⟩ := hmore applicant token seat (htail ▸ List.mem_cons_self)
      exact ⟨sender, by rwa [List.append_nil] at hmem⟩
    | cons notice between =>
      obtain ⟨rfl, -⟩ := List.cons_eq_cons.mp htail
      exact h before applicant token seat between rfl

structure Traced (received : Endpoint → List Bytes) (history : List Notice) (s : Session) :
    Prop where
  tokens : ∀ host, s.hosted = some host → ∀ token ∈ host.registry.tokens,
    ∃ sender, .handled sender (.proxyToken token) ∈ history
  seats : ∀ host, s.hosted = some host → ∀ seat ∈ host.registry.seats,
    ∃ applicant token, .host (.admitted applicant token seat) ∈ history
  backed : Backed history
  delivered : ∀ sender packet, .handled sender packet ∈ history →
    Delivered (received sender) packet
  streams : ∀ entry ∈ s.streams, Stopped (received entry.1) entry.2

namespace Traced

variable {received : Endpoint → List Bytes} {past : List Notice} {a b : Act}

theorem mono {more : Endpoint → List Bytes} {history : List Notice} {s : Session}
    (h : Traced received history s) (hmore : ∀ sender, (received sender).Sublist (more sender)) :
    Traced more history s where
  tokens := h.tokens
  seats := h.seats
  backed := h.backed
  delivered := fun sender packet hmem => (h.delivered sender packet hmem).mono (hmore sender)
  streams := fun entry hmem => (h.streams entry hmem).mono (hmore entry.1)

theorem plain (h : Traced received (past ++ a.told) a.session) (hplain : a.Plain b) :
    Traced received (past ++ b.told) b.session := by
  obtain ⟨more, hmore, hnotices⟩ := hplain.told
  have hempty : ∀ host, b.session.hosted = some host →
      a.session.hosted = some host ∨ host.registry = {} := by
    intro host hhost
    rcases hplain.hosted with hsame | hempty
    · exact .inl (hsame ▸ hhost)
    · exact .inr (hempty host hhost)
  rw [hmore, ← List.append_assoc]
  refine ⟨fun host hhost token hmem => ?_, fun host hhost seat hmem => ?_, ?_, ?_, ?_⟩
  · rcases hempty host hhost with hhost | hregistry
    · obtain ⟨sender, hsent⟩ := h.tokens host hhost token hmem
      exact ⟨sender, List.mem_append_left _ hsent⟩
    · rw [hregistry] at hmem
      exact nomatch hmem
  · rcases hempty host hhost with hhost | hregistry
    · obtain ⟨applicant, token, hadmitted⟩ := h.seats host hhost seat hmem
      exact ⟨applicant, token, List.mem_append_left _ hadmitted⟩
    · rw [hregistry] at hmem
      exact nomatch hmem
  · exact h.backed.append fun applicant token seat hmem => nomatch hnotices _ hmem
  · intro sender packet hmem
    rcases List.mem_append.mp hmem with hmem | hmem
    · exact h.delivered sender packet hmem
    · exact nomatch hnotices _ hmem
  · rcases hplain.streams with hsame | hnone
    · rw [hsame]
      exact h.streams
    · rw [hnone]
      exact fun _ => nofun

/-- The hosted proxy moves; a token it is given was sent. -/
theorem adopt (h : Traced received (past ++ a.told) a.session) {host : Host}
    (hhost : a.session.hosted = some host) (move : Host.Move)
    (htoken : ∀ token, move.token? = some token →
      ∃ sender, .handled sender (.proxyToken token) ∈ past ++ a.told) :
    Traced received (past ++ (a.adopt (host.move move)).told)
      (a.adopt (host.move move)).session := by
  obtain ⟨ready, hadopt⟩ := a.adopt_eq (host.move move)
  rw [hadopt, ← List.append_assoc]
  refine ⟨?_, ?_, ?_, ?_, h.streams⟩
  · rintro _ ⟨⟩ token hmem
    have hsent : ∃ sender, .handled sender (.proxyToken token) ∈ past ++ a.told := by
      rcases Host.token_origin hmem with hmem | hgiven
      · exact h.tokens host hhost token hmem
      · exact htoken token hgiven
    obtain ⟨sender, hsent⟩ := hsent
    exact ⟨sender, List.mem_append_left _ hsent⟩
  · rintro _ ⟨⟩ seat hmem
    rcases Host.seat_origin hmem with hmem | ⟨applicant, token, hadmitted⟩
    · obtain ⟨applicant, token, hadmitted⟩ := h.seats host hhost seat hmem
      exact ⟨applicant, token, List.mem_append_left _ hadmitted⟩
    · exact ⟨applicant, token, List.mem_append_right _ (List.mem_map_of_mem hadmitted)⟩
  · refine h.backed.append fun applicant token seat hmem => ?_
    obtain ⟨_, hmem, ⟨⟩⟩ := List.mem_map.mp hmem
    -- An admission takes a token that was pending before the move, and that was sent.
    obtain ⟨_, hpending, _⟩ := Host.admission_origin hmem
    exact h.tokens host hhost token hpending
  · intro sender packet hmem
    rcases List.mem_append.mp hmem with hmem | hmem
    · exact h.delivered sender packet hmem
    · obtain ⟨_, _, ⟨⟩⟩ := List.mem_map.mp hmem

theorem atHost (h : Traced received (past ++ a.told) a.session) (move : Host.Move)
    (htoken : ∀ token, move.token? = some token →
      ∃ sender, .handled sender (.proxyToken token) ∈ past ++ a.told) :
    Traced received (past ++ (a.atHost (·.move move)).told) (a.atHost (·.move move)).session := by
  rw [Act.atHost]
  cases hhost : a.session.hosted with
  | none => exact h
  | some host => exact h.adopt hhost move htoken

theorem handle (h : Traced received (past ++ a.told) a.session) {sender : Endpoint}
    {packet : Packet} (hpacket : Delivered (received sender) packet) :
    Traced received (past ++ (a.handle sender packet).told) (a.handle sender packet).session := by
  have htold : Traced received (past ++ (a.tell (.handled sender packet)).told)
      (a.tell (.handled sender packet)).session := by
    rw [Act.tell, ← List.append_assoc]
    refine ⟨fun host hhost token hmem => ?_, fun host hhost seat hmem => ?_, ?_, ?_, h.streams⟩
    · obtain ⟨source, hsent⟩ := h.tokens host hhost token hmem
      exact ⟨source, List.mem_append_left _ hsent⟩
    · obtain ⟨applicant, token, hadmitted⟩ := h.seats host hhost seat hmem
      exact ⟨applicant, token, List.mem_append_left _ hadmitted⟩
    · exact h.backed.append fun _ _ _ hmem => nomatch List.mem_singleton.mp hmem
    · intro source other hmem
      rcases List.mem_append.mp hmem with hmem | hmem
      · exact h.delivered source other hmem
      · obtain ⟨rfl, rfl⟩ := List.mem_singleton.mp hmem
        exact hpacket
  cases hmove : a.session.hostMove? sender packet with
  | none => exact htold.plain (Act.plain_handle hmove)
  | some move =>
    rw [Act.handle_of_hostMove? hmove]
    refine htold.atHost move fun token htoken => ⟨sender, ?_⟩
    rw [eq_proxyToken_of_hostMove? hmove htoken, Act.tell, ← List.append_assoc]
    exact List.mem_append_right _ (List.mem_singleton_self _)

/-- The datagram that comes in is the last of its sender's. -/
theorem receive (h : Traced received (past ++ a.told) a.session) {more : Endpoint → List Bytes}
    {sender : Endpoint} {datagram : Bytes}
    (hmore : ∀ source, (received source).Sublist (more source))
    (hlast : more sender = received sender ++ [datagram.take receiveLimit]) :
    Traced more (past ++ (a.receive sender datagram).told) (a.receive sender datagram).session := by
  rcases a.receive_cases sender datagram with ⟨host, hhost, hreceive⟩ | hreceive
  · rw [hreceive]
    exact (h.mono hmore).adopt hhost _ fun _ => nofun
  · obtain ⟨hpackets, hstreams⟩ :=
      reassemble_spec h.streams sender (datagram.take receiveLimit)
    rw [← hlast] at hpackets hstreams
    have hupdated : Traced more (past ++ a.told) { a.session with streams :=
        (reassemble a.session.streams sender (datagram.take receiveLimit)).2 } := by
      refine ⟨h.tokens, h.seats, h.backed, (h.mono hmore).delivered, fun entry hmem => ?_⟩
      rcases hstreams entry hmem with hmem | ⟨hsender, hstopped⟩
      · exact (h.streams entry hmem).mono (hmore entry.1)
      · exact hsender ▸ hstopped
    rw [hreceive]
    apply List.foldlRecOn (motive := fun b : Act => Traced more (past ++ b.told) b.session) _ _
      hupdated
    intro b hb packet hmem
    exact hb.handle (hpackets packet hmem)

end Traced

theorem received_sublist (moves : List Move) (m : Move) (sender : Endpoint) :
    (received moves sender).Sublist (received (moves ++ [m]) sender) := by
  rw [received, received, List.filterMap_append]
  exact List.sublist_append_left _ _

theorem Traced.next {moves : List Move} {c : Act}
    (h : Traced (received moves) c.told c.session) (m : Move) :
    Traced (received (moves ++ [m])) (c.next m).told (c.next m).session := by
  have hmore := received_sublist moves m
  have hstart (s : Session) (hs : s.hosted = c.session.hosted ∧ s.streams = c.session.streams) :
      Traced (received moves) (c.told ++ ({ session := s } : Act).told) s := by
    rw [List.append_nil]
    exact ⟨hs.1 ▸ h.tokens, hs.1 ▸ h.seats, h.backed, h.delivered, hs.2 ▸ h.streams⟩
  have hsame := hstart c.session ⟨rfl, rfl⟩
  rcases c.session.move_cases m with
    hplain | ⟨sender, bytes, rfl, _, hreceive⟩ | ⟨job, host, rfl, _, hhost, hjob⟩
  · exact (Traced.plain (a := { session := c.session }) hsame hplain).mono hmore
  · have hlast : received (moves ++ [.event (.datagram sender bytes)]) sender =
        received moves sender ++ [bytes.take receiveLimit] := by
      have hdatagram : Move.datagram? sender (.event (.datagram sender bytes)) =
          some (bytes.take receiveLimit) := if_pos rfl
      rw [received, List.filterMap_append, List.filterMap_cons_some hdatagram, List.filterMap_nil]
      rfl
    rw [Act.next, hreceive]
    exact Traced.receive (a := { session := c.session }) hsame hmore hlast
  · rw [Act.next, hjob]
    exact (Traced.adopt (a := { session := { c.session with
      ready := c.session.ready.erase (.host job) } }) (hstart _ ⟨rfl, rfl⟩) hhost
      (.perform _ _ job) fun _ => nofun).mono hmore

theorem traced_after {s : Session} (hhosted : s.hosted = none) (hstreams : s.streams = [])
    (moves : List Move) :
    Traced (received moves) (s.after moves).told (s.after moves).session := by
  induction moves using List.reverseRecOn with
  | nil =>
    have hbacked : Backed [] := fun before _ _ _ _ hsplit =>
      nomatch (List.append_eq_nil_iff.mp hsplit.symm).2
    refine ⟨fun host hhost => ?_, fun host hhost => ?_, hbacked, fun _ _ => nofun, fun _ hmem => ?_⟩
    · exact nomatch hhosted ▸ hhost
    · exact nomatch hhosted ▸ hhost
    · exact nomatch hstreams ▸ hmem
  | append_singleton moves m ih =>
    rw [after_concat]
    exact ih.next m

/-! ### The last admission to a seat -/

theorem exists_last {α : Type} {p : α → Prop} {xs : List α} (hexists : ∃ x ∈ xs, p x) :
    ∃ before x after, xs = before ++ x :: after ∧ p x ∧ ∀ y ∈ after, ¬ p y := by
  induction xs with
  | nil =>
    obtain ⟨_, hmem, _⟩ := hexists
    exact nomatch hmem
  | cons first rest ih =>
    by_cases hrest : ∃ x ∈ rest, p x
    · obtain ⟨before, x, after, rfl, hlast⟩ := ih hrest
      exact ⟨first :: before, x, after, rfl, hlast⟩
    · obtain ⟨x, hmem, hx⟩ := hexists
      have hnone : ∀ y ∈ rest, ¬ p y := fun y hmem hy => hrest ⟨y, hmem, hy⟩
      rcases List.mem_cons.mp hmem with rfl | hmem
      · exact ⟨[], x, rest, rfl, hx, hnone⟩
      · exact absurd hx (hnone x hmem)

theorem last_unique {α : Type} {p : α → Prop} {before before' after after' : List α} {x x' : α}
    (hsame : before ++ x :: after = before' ++ x' :: after') (hx : p x) (hx' : p x')
    (hafter : ∀ y ∈ after, ¬ p y) (hafter' : ∀ y ∈ after', ¬ p y) : before = before' ∧ x = x' := by
  rcases List.append_eq_append_iff.mp hsame with ⟨between, rfl, htail⟩ | ⟨between, rfl, htail⟩
  · cases between with
    | nil => exact ⟨(List.append_nil _).symm, (List.cons_eq_cons.mp htail).1⟩
    | cons first between =>
      obtain ⟨-, rfl⟩ := List.cons_eq_cons.mp htail
      exact absurd hx' (hafter x' (List.mem_append_right _ List.mem_cons_self))
  · cases between with
    | nil => exact ⟨List.append_nil _, (List.cons_eq_cons.mp htail).1.symm⟩
    | cons first between =>
      obtain ⟨-, rfl⟩ := List.cons_eq_cons.mp htail
      exact absurd hx (hafter' x (List.mem_append_right _ List.mem_cons_self))

/-- The peer has a seat at the hosted proxy. -/
def Listed (s : Session) (seat : Seat) : Prop :=
  ∃ host, s.hosted = some host ∧ seat ∈ host.registry.seats

/-- When the seat was granted last it was on this token, and `sender` had sent that before. -/
def AdmittedOn (history : List Notice) (seat : Seat) (sender : Endpoint) (token : ProxyToken) :
    Prop :=
  ∃ before applicant after,
    history = before ++ .host (.admitted applicant token seat) :: after ∧
      (∀ applicant token, .host (.admitted applicant token seat) ∉ after) ∧
      .handled sender (.proxyToken token) ∈ before

/-- The peer was let in on a token that arrived in datagrams of `sender`. -/
def AdmittedFrom (s : Session) (moves : List Move) (sender : Endpoint) (seat : Seat) : Prop :=
  ∃ token, AdmittedOn (s.after moves).told seat sender token ∧
    Delivered (received moves sender) (.proxyToken token)

namespace Act

/-- Nobody was let in between the acts. -/
def Quiet (a b : Act) : Prop :=
  ∃ more, b.told = a.told ++ more ∧
    ∀ applicant token seat, .host (.admitted applicant token seat) ∉ more

namespace Quiet

variable {a b c : Act}

theorem trans (hfirst : a.Quiet b) (hsecond : b.Quiet c) : a.Quiet c := by
  obtain ⟨before, hbefore, hquiet⟩ := hfirst
  obtain ⟨more, hmore, hquiet'⟩ := hsecond
  refine ⟨before ++ more, by rw [hmore, hbefore, List.append_assoc], fun _ _ _ hmem => ?_⟩
  rcases List.mem_append.mp hmem with hmem | hmem
  · exact hquiet _ _ _ hmem
  · exact hquiet' _ _ _ hmem

theorem ofPlain (hplain : a.Plain b) : a.Quiet b := by
  obtain ⟨more, hmore, hnotices⟩ := hplain.told
  exact ⟨more, hmore, fun _ _ _ hmem => nomatch hnotices _ hmem⟩

theorem adopt (a : Act) {host : Host} {move : Host.Move}
    (hquiet : host.WithoutGrant move (host.move move)) : a.Quiet (a.adopt (host.move move)) := by
  obtain ⟨ready, hadopt⟩ := a.adopt_eq (host.move move)
  refine ⟨_, congrArg Act.told hadopt, fun applicant token seat hmem => ?_⟩
  obtain ⟨_, hmem, ⟨⟩⟩ := List.mem_map.mp hmem
  have hadmitted := mem_admissions.mpr hmem
  rw [hquiet.admissions] at hadmitted
  exact nomatch hadmitted

theorem handle (a : Act) (sender : Endpoint) (packet : Packet) :
    a.Quiet (a.handle sender packet) := by
  have htold : a.Quiet (a.tell (.handled sender packet)) :=
    ⟨_, rfl, fun _ _ _ hmem => nomatch List.mem_singleton.mp hmem⟩
  cases hmove : a.session.hostMove? sender packet with
  | none => exact htold.trans (.ofPlain (plain_handle hmove))
  | some move =>
    rw [handle_of_hostMove? hmove, atHost]
    split
    · exact htold.trans (.adopt _ (withoutGrant_of_hostMove? hmove _))
    · exact htold

theorem receive (a : Act) (sender : Endpoint) (datagram : Bytes) :
    a.Quiet (a.receive sender datagram) := by
  rcases a.receive_cases sender datagram with ⟨host, _, hreceive⟩ | hreceive
  · rw [hreceive]
    exact .adopt a (host.withoutGrant_receive sender _)
  · have hstart : a.Quiet (a.update fun s => { s with streams :=
        (reassemble a.session.streams sender (datagram.take receiveLimit)).2 }) :=
      ⟨[], (List.append_nil _).symm, fun _ _ _ => nofun⟩
    rw [hreceive]
    apply List.foldlRecOn _ _ hstart
    intro b hb packet _
    exact hb.trans (.handle b sender packet)

end Quiet

end Act

/-- Who is let in by a move is listed after it, and nobody else is let in. -/
theorem listed_of_admitted {s : Session} {m : Move} {before after : List Notice} {applicant : Nat}
    {token : ProxyToken} {seat : Seat}
    (htold : (s.move m).told = before ++ .host (.admitted applicant token seat) :: after) :
    (s.move m).session.Listed seat ∧
      ∀ applicant token, .host (.admitted applicant token seat) ∉ after := by
  have hloud : ¬ ({ session := s } : Act).Quiet (s.move m) := by
    rintro ⟨more, hmore, hquiet⟩
    rw [List.nil_append] at hmore
    exact hquiet applicant token seat
      (hmore ▸ htold ▸ List.mem_append_right _ List.mem_cons_self)
  rcases s.move_cases m with
    hplain | ⟨sender, bytes, rfl, _, hreceive⟩ | ⟨job, host, rfl, _, _, hjob⟩
  · exact absurd (.ofPlain hplain) hloud
  · rw [hreceive] at hloud
    exact absurd (.receive _ sender bytes) hloud
  · obtain ⟨ready, hadopt⟩ := ({ session := { s with
      ready := s.ready.erase (.host job) } } : Act).adopt_eq
        (host.move (.perform s.clock s.link job))
    rw [hjob, hadopt] at htold ⊢
    rw [List.nil_append] at htold
    obtain ⟨first, rest, hnotices, _, hrest⟩ := List.map_eq_append_iff.mp htold
    obtain ⟨_, last, rfl, ⟨⟩, rfl⟩ := List.map_eq_cons_iff.mp hrest
    have hmem : .admitted applicant token seat ∈ (host.move (.perform s.clock s.link job)).notices :=
      hnotices ▸ List.mem_append_right _ List.mem_cons_self
    obtain ⟨hsole, _, hseat⟩ := Host.admission_origin hmem
    refine ⟨⟨_, rfl, hseat⟩, fun other token' hother => ?_⟩
    obtain ⟨_, hother, ⟨⟩⟩ := List.mem_map.mp hother
    have htwo : admissions first ++ (applicant, token, seat) :: admissions last =
        [(applicant, token, seat)] := by
      rw [← hsole, hnotices, admissions_append]
      rfl
    have hlength := congrArg List.length htwo
    have hmore := List.length_pos_of_mem (mem_admissions.mpr hother)
    rw [List.length_append, List.length_cons, List.length_singleton] at hlength
    omega

/-- What is told was told by one move of the run. -/
theorem told_origin {s : Session} {moves : List Move} {before after : List Notice} {notice : Notice}
    (htold : (s.after moves).told = before ++ notice :: after) :
    ∃ early m between rest, early ++ [m] <+: moves ∧ before = (s.after early).told ++ between ∧
      ((s.after early).session.move m).told = between ++ notice :: rest := by
  induction moves using List.reverseRecOn generalizing after with
  | nil => exact nomatch (List.append_eq_nil_iff.mp htold.symm).2
  | append_singleton moves m ih =>
    rw [after_concat] at htold
    -- The last move told it, or it was there before.
    rcases List.append_eq_append_iff.mp htold with ⟨between, hbefore, hmove⟩ | ⟨between, hold, hmove⟩
    · exact ⟨moves, m, between, after, List.prefix_rfl, hbefore, hmove⟩
    · cases between with
      | nil =>
        rw [List.append_nil] at hold
        exact ⟨moves, m, [], after, List.prefix_rfl, by rw [hold, List.append_nil], hmove.symm⟩
      | cons first between =>
        obtain ⟨rfl, -⟩ := List.cons_eq_cons.mp hmove
        obtain ⟨early, last, between, rest, hprefix, hrest⟩ := ih hold
        exact ⟨early, last, between, rest, hprefix.trans (List.prefix_append _ _), hrest⟩

theorem new_of_create {settings : Settings} {interfaces : Interfaces}
    {localAddress : Except IoError Endpoint} {s : Session}
    (hcreate : create settings interfaces localAddress = .ok s) :
    s.hosted = none ∧ s.streams = [] := by
  rw [create] at hcreate
  split at hcreate
  · exact nomatch hcreate
  · obtain rfl := Except.ok.inj hcreate
    exact ⟨rfl, rfl⟩

section Run

variable {s : Session} (hhosted : s.hosted = none) (hstreams : s.streams = []) (moves : List Move)
include hhosted hstreams

theorem last_admission {seat : Seat} (hlisted : (s.after moves).session.Listed seat) :
    ∃ before applicant token after,
      (s.after moves).told = before ++ .host (.admitted applicant token seat) :: after ∧
        ∀ applicant token, .host (.admitted applicant token seat) ∉ after := by
  obtain ⟨host, hhost, hseat⟩ := hlisted
  obtain ⟨applicant, token, hmem⟩ := (traced_after hhosted hstreams moves).seats host hhost seat hseat
  obtain ⟨before, _, after, htold, ⟨applicant, token, rfl⟩, hlast⟩ :=
    exists_last (p := fun notice => ∃ applicant token,
      notice = .host (.admitted applicant token seat)) ⟨_, hmem, applicant, token, rfl⟩
  exact ⟨before, applicant, token, after, htold,
    fun applicant token hmem => hlast _ hmem ⟨applicant, token, rfl⟩⟩

theorem admittedFrom_of_handled {seat : Seat} {before after : List Notice} {applicant : Nat}
    {token : ProxyToken} {sender : Endpoint}
    (htold : (s.after moves).told = before ++ .host (.admitted applicant token seat) :: after)
    (hlast : ∀ applicant token, .host (.admitted applicant token seat) ∉ after)
    (hhandled : .handled sender (.proxyToken token) ∈ before) :
    s.AdmittedFrom moves sender seat := by
  refine ⟨token, ⟨before, applicant, after, htold, hlast, hhandled⟩, ?_⟩
  refine (traced_after hhosted hstreams moves).delivered sender _ ?_
  rw [htold]
  exact List.mem_append_left _ hhandled

theorem exists_admittedFrom {seat : Seat} (hlisted : (s.after moves).session.Listed seat) :
    ∃ sender, s.AdmittedFrom moves sender seat := by
  obtain ⟨before, applicant, token, after, htold, hlast⟩ :=
    last_admission hhosted hstreams moves hlisted
  obtain ⟨sender, hhandled⟩ :=
    (traced_after hhosted hstreams moves).backed before applicant token seat after htold
  exact ⟨sender, admittedFrom_of_handled hhosted hstreams moves htold hlast hhandled⟩

end Run

/-- Every peer that is listed was let in on a token that arrived in datagrams of one endpoint. That
it was the relay, for all peers that were listed on the way, holds of exactly the runs in which
every admission's token had come from the relay before; so it holds if no one else delivers
tokens. -/
theorem listed_on_delivered_token {settings : Settings} {interfaces : Interfaces}
    {localAddress : Except IoError Endpoint} {s : Session}
    (hcreate : create settings interfaces localAddress = .ok s) (moves : List Move) :
    (∀ seat, (s.after moves).session.Listed seat → ∃ sender, s.AdmittedFrom moves sender seat) ∧
    ((∀ early, early <+: moves → ∀ seat, (s.after early).session.Listed seat →
        s.AdmittedFrom early s.relay seat) ↔
      ∀ before applicant token seat after,
        (s.after moves).told = before ++ .host (.admitted applicant token seat) :: after →
          .handled s.relay (.proxyToken token) ∈ before) ∧
    ((∀ sender token, Delivered (received moves sender) (.proxyToken token) → sender = s.relay) →
      ∀ seat, (s.after moves).session.Listed seat → s.AdmittedFrom moves s.relay seat) := by
  obtain ⟨hhosted, hstreams⟩ := new_of_create hcreate
  refine ⟨fun _ => exists_admittedFrom hhosted hstreams moves, ⟨?_, ?_⟩, ?_⟩
  · intro hrelay before applicant token seat after htold
    obtain ⟨early, m, between, rest, hprefix, rfl, hmove⟩ := told_origin htold
    obtain ⟨hlisted, hlast⟩ := listed_of_admitted hmove
    have hnext : (s.after (early ++ [m])).told = (s.after early).told ++ between ++
        .host (.admitted applicant token seat) :: rest := by
      rw [after_concat, List.append_assoc, ← hmove]
      rfl
    have hseated : (s.after (early ++ [m])).session.Listed seat := by
      rw [after_concat]
      exact hlisted
    obtain ⟨other, ⟨before', applicant', after', htold', hlast', hhandled⟩, _⟩ :=
      hrelay _ hprefix seat hseated
    -- The admission that counts at the end of this move is the one it told of.
    obtain ⟨rfl, hsame⟩ := last_unique
      (p := fun notice => ∃ applicant token, notice = .host (.admitted applicant token seat))
      (hnext.symm.trans htold') ⟨applicant, token, rfl⟩ ⟨applicant', other, rfl⟩
      (fun _ hmem ⟨_, _, hnotice⟩ => hlast _ _ (hnotice ▸ hmem))
      (fun _ hmem ⟨_, _, hnotice⟩ => hlast' _ _ (hnotice ▸ hmem))
    obtain ⟨⟩ := hsame
    exact hhandled
  · intro hrelay early hprefix seat hlisted
    obtain ⟨rest, rfl⟩ := hprefix
    obtain ⟨before, applicant, token, after, htold, hlast⟩ :=
      last_admission hhosted hstreams early hlisted
    have hall : (s.after (early ++ rest)).told = before ++
        .host (.admitted applicant token seat) :: (after ++
          ((s.after early).session.after rest).told) := by
      rw [after_append, Act.followedBy, htold, List.append_assoc, List.cons_append]
    exact admittedFrom_of_handled hhosted hstreams early htold hlast (hrelay _ _ _ _ _ hall)
  · intro hsole seat hlisted
    obtain ⟨sender, hadmitted⟩ := exists_admittedFrom hhosted hstreams moves hlisted
    obtain ⟨token, _, hdelivered⟩ := id hadmitted
    exact hsole sender token hdelivered ▸ hadmitted

/-! ### A run with the token from the relay, and one with the token from the peer -/

def sampleAddress : Endpoint :=
  { ip := .v4 (Block.ofBytes [10, 0, 0, 1]), port := 40000 }

def samplePeer : Endpoint :=
  { ip := .v4 (Block.ofBytes [10, 0, 0, 2]), port := 7 }

def sample : Session where
  relay := { ip := .v4 (Block.ofBytes [127, 0, 0, 1]), port := 30456 }
  timeouts := {}
  interfaces := .ok []
  localAddress := .ok sampleAddress
  passphrase := ""
  p2p := true
  idle := { duration := 6000 }

/-- An offer with an empty token. -/
def sampleOffer : Bytes :=
  [82, 76, 68, 78, 0, 0, 0, 0, 0, 4, 1, 38, 0, 0, 0] ++ List.replicate 38 0

/-- A network is asked for, `issuer` sends a wildcard for the virtual address 1, and the peer sends
its offer. -/
def sampleRun (issuer : Endpoint) : List Move :=
  [.event (.call (.operate (.createPublic default []))),
    .event (.datagram issuer
      ([82, 76, 68, 78, 0, 0, 0, 0, 0, 5, 1, 40, 0, 0, 0, 1] ++ List.replicate 39 0)),
    .event (.datagram samplePeer sampleOffer), .turn (.host (.consider 0))]

theorem listed_of_seats {s : Session} {seat : Seat}
    (hseats : s.hosted.map (·.registry.seats) = some [seat]) : s.Listed seat := by
  obtain ⟨host, hhost, hseat⟩ := Option.map_eq_some_iff.mp hseats
  exact ⟨host, hhost, hseat ▸ List.mem_singleton_self seat⟩

theorem not_delivered_nil (packet : Packet) : ¬ Delivered [] packet := by
  rintro ⟨pieces, hpieces, frame, hmem, _⟩
  obtain rfl := List.sublist_nil.mp hpieces
  exact nomatch hmem

theorem not_delivered_sampleOffer (token : ProxyToken) :
    ¬ Delivered [sampleOffer] (.proxyToken token) := by
  rintro ⟨pieces, hpieces, frame, hmem, hframe⟩
  rcases List.sublist_cons_iff.mp hpieces with hpieces | ⟨rest, rfl, hrest⟩
  · obtain rfl := List.sublist_nil.mp hpieces
    exact nomatch hmem
  · obtain rfl := List.sublist_nil.mp hrest
    have hpackets : (readStream [sampleOffer].flatten).frames.map (·.packet) =
        [.proxyOffer ⟨.zero, .unspecified, 0, .zero⟩] := by decide +kernel
    have hpacket : frame.packet ∈ [Packet.proxyOffer ⟨.zero, .unspecified, 0, .zero⟩] :=
      hpackets ▸ List.mem_map_of_mem hmem
    rw [hframe] at hpacket
    exact nomatch List.mem_singleton.mp hpacket

theorem listed_on_relay_token :
    let moves := sampleRun sample.relay
    create {} (.ok []) (.ok sampleAddress) = .ok sample ∧
      (sample.after moves).session.Listed ⟨0, samplePeer, 1⟩ ∧
      sample.AdmittedFrom moves sample.relay ⟨0, samplePeer, 1⟩ := by
  intro moves
  have hcreate : create {} (.ok []) (.ok sampleAddress) = .ok sample := rfl
  have hlisted : (sample.after moves).session.Listed ⟨0, samplePeer, 1⟩ :=
    listed_of_seats (by decide +kernel)
  refine ⟨hcreate, hlisted, (listed_on_delivered_token hcreate moves).2.2 ?_ _ hlisted⟩
  intro sender token hdelivered
  by_cases hpeer : samplePeer = sender
  · have hreceived : received moves samplePeer = [sampleOffer] := by decide +kernel
    rw [← hpeer, hreceived] at hdelivered
    exact absurd hdelivered (not_delivered_sampleOffer token)
  · refine Decidable.byContradiction fun hrelay => ?_
    have hreceived : received moves sender = [] := by
      simp only [received, moves, sampleRun, List.filterMap_cons, List.filterMap_nil,
        Move.datagram?, if_neg hpeer, if_neg (Ne.symm hrelay)]
    rw [hreceived] at hdelivered
    exact not_delivered_nil _ hdelivered

/-- Nothing at all came from the relay. -/
theorem listed_on_stranger_token :
    let moves := sampleRun samplePeer
    create {} (.ok []) (.ok sampleAddress) = .ok sample ∧ received moves sample.relay = [] ∧
      (sample.after moves).session.Listed ⟨0, samplePeer, 1⟩ ∧
      ¬ sample.AdmittedFrom moves sample.relay ⟨0, samplePeer, 1⟩ := by
  intro moves
  have hreceived : received moves sample.relay = [] := by decide +kernel
  refine ⟨rfl, hreceived, listed_of_seats (by decide +kernel), fun hadmitted => ?_⟩
  obtain ⟨token, _, hdelivered⟩ := hadmitted
  rw [hreceived] at hdelivered
  exact not_delivered_nil _ hdelivered

end LocalPlay.Session
