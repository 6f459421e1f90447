import LocalPlay.Proofs.Session.Course
import LocalPlay.Proofs.Session.History
import LocalPlay.Proofs.Session.Provenance
import LocalPlay.Proofs.Session.Stretches.Moves
import LocalPlay.Proofs.Wire.RoundTrip

/-!
# Moments of a run

A moment lies between two steps of a move of a run. What every step keeps holds at every moment, and
everything that is told is told by the step after some moment.
-/

namespace LocalPlay.Session

open Net Wire Overlay Timing

/-- In the move after `early` the session is `t`: this much was told in the move, and the rest is
still to come. -/
structure Moment (s : Session) (moves early : List Move) (m : Move) (told rest : List Notice)
    (t : Session) : Prop where
  isPrefix : early ++ [m] <+: moves
  steps : Steps (s.after early).session m (s.after early).session t told
  whole : ((s.after early).session.move m).told = told ++ rest

/-- All that was told until the moment stands at the beginning of what the run tells. -/
theorem Moment.exists_told_eq {s : Session} {moves early : List Move} {m : Move}
    {told rest : List Notice} {t : Session} (h : Moment s moves early m told rest t) :
    ∃ after, (s.after moves).told = (s.after early).told ++ told ++ (rest ++ after) := by
  obtain ⟨later, rfl⟩ := h.isPrefix
  refine ⟨((s.after (early ++ [m])).session.after later).told, ?_⟩
  rw [after_append, after_concat, Act.followedBy, Act.next, Act.followedBy, h.whole]
  simp only [List.append_assoc]

/-- The statement holds at first, and every step of the run keeps it. -/
structure Invariant (s : Session) (moves : List Move) (P : List Notice → Session → Prop) :
    Prop where
  initial : P [] s
  step : ∀ {early m told more rest t u}, Moment s moves early m told (more ++ rest) t →
    P (s.after early).told (s.after early).session → P ((s.after early).told ++ told) t →
    Step (s.after early).session m t u more → P ((s.after early).told ++ told ++ more) u

variable {s : Session} {moves : List Move} {P : List Notice → Session → Prop}

namespace Invariant

theorem within (h : Invariant s moves P) {early : List Move} {m : Move} {told rest : List Notice}
    {t : Session} (hmoves : early ++ [m] <+: moves)
    (horigin : P (s.after early).told (s.after early).session)
    (hsteps : Steps (s.after early).session m (s.after early).session t told)
    (hwhole : ((s.after early).session.move m).told = told ++ rest) :
    P ((s.after early).told ++ told) t := by
  induction hsteps generalizing rest with
  | refl =>
    rw [List.append_nil]
    exact horigin
  | tail hsteps hstep ih =>
    rw [List.append_assoc] at hwhole
    rw [← List.append_assoc]
    exact h.step ⟨hmoves, hsteps, hwhole⟩ horigin (ih hwhole) hstep

theorem after (h : Invariant s moves P) {early : List Move} (hmoves : early <+: moves) :
    P (s.after early).told (s.after early).session := by
  induction early using List.reverseRecOn with
  | nil => exact h.initial
  | append_singleton early m ih =>
    have horigin := ih ((List.prefix_append _ _).trans hmoves)
    rw [after_concat]
    exact h.within hmoves horigin (steps_move _ m) (List.append_nil _).symm

theorem moment (h : Invariant s moves P) {early : List Move} {m : Move} {told rest : List Notice}
    {t : Session} (hmoment : Moment s moves early m told rest t) :
    P ((s.after early).told ++ told) t :=
  h.within hmoment.isPrefix (h.after ((List.prefix_append _ _).trans hmoment.isPrefix))
    hmoment.steps hmoment.whole

end Invariant

/-- What is told in a move is told by one of its steps. -/
theorem Steps.split {origin s u : Session} {m : Move} {all between rest : List Notice}
    {notice : Notice} (h : Steps origin m s u all) (hall : all = between ++ notice :: rest) :
    ∃ told first last more t v, Steps origin m s t told ∧
      Step origin m t v (first ++ notice :: last) ∧ between = told ++ first ∧
        rest = last ++ more := by
  induction h generalizing rest with
  | refl => exact nomatch (List.append_eq_nil_iff.mp hall.symm).2
  | tail hsteps hstep ih =>
    rcases split_append hall with ⟨mid, htold, rfl⟩ | ⟨first, rfl, rfl⟩
    · obtain ⟨told, first, last, more, t, v, hbefore, hthis, rfl, rfl⟩ := ih htold
      exact ⟨told, first, last, _, t, v, hbefore, hthis, rfl, List.append_assoc ..⟩
    · exact ⟨_, first, rest, [], _, _, hsteps, hstep, rfl, (List.append_nil _).symm⟩

/-- What is told in a move of a run is told by the step after some moment. -/
theorem exists_moment_of_move {early : List Move} {m : Move} {between rest : List Notice}
    {notice : Notice} (hmoves : early ++ [m] <+: moves)
    (hmove : ((s.after early).session.move m).told = between ++ notice :: rest) :
    ∃ told first last more t u,
      Moment s moves early m told (first ++ notice :: last ++ more) t ∧
        Step (s.after early).session m t u (first ++ notice :: last) ∧ between = told ++ first := by
  obtain ⟨told, first, last, more, t, u, hsteps, hstep, rfl, rfl⟩ :=
    (steps_move (s.after early).session m).split hmove
  refine ⟨told, first, last, more, t, u, ⟨hmoves, hsteps, ?_⟩, hstep, rfl⟩
  rw [hmove]
  simp only [List.append_assoc, List.cons_append]

theorem exists_moment {before after : List Notice} {notice : Notice}
    (htold : (s.after moves).told = before ++ notice :: after) :
    ∃ early m told first last rest t u,
      Moment s moves early m told (first ++ notice :: last ++ rest) t ∧
        Step (s.after early).session m t u (first ++ notice :: last) ∧
          before = (s.after early).told ++ (told ++ first) := by
  obtain ⟨early, m, between, rest, hmoves, rfl, hmove⟩ := told_origin htold
  obtain ⟨told, first, last, more, t, u, hmoment, hstep, rfl⟩ := exists_moment_of_move hmoves hmove
  exact ⟨early, m, told, first, last, more, t, u, hmoment, hstep, rfl⟩

/-- A call that begins in a run is its last move or begins before. -/
theorem isPrefix_concat_cases {early : List Move} {m last : Move}
    (hmoves : early ++ [m] <+: moves ++ [last]) :
    early = moves ∧ last = m ∨ early ++ [m] <+: moves := by
  rcases List.prefix_concat_iff.mp hmoves with hlast | hmoves
  · obtain ⟨rfl, hm⟩ := List.append_inj' hlast rfl
    exact .inl ⟨rfl, (List.singleton_inj.mp hm).symm⟩
  · exact .inr hmoves

theorem create_eq {settings : Settings} {interfaces : Interfaces}
    {localAddress : Except IoError Endpoint}
    (hcreate : create settings interfaces localAddress = .ok s) : ∃ relay, s =
      { relay
        timeouts := settings.timeouts
        interfaces
        localAddress
        passphrase := settings.passphrase
        p2p := !settings.disableP2p
        idle := { duration := settings.timeouts.inactive } } := by
  rw [create] at hcreate
  split at hcreate
  · cases hcreate
  · exact ⟨_, (Except.ok.inj hcreate).symm⟩

/-! ### Datagrams that hold one packet -/

theorem reassemble_encoding {packet : Packet} {bytes : Bytes} (hencode : packet.encode = .ok bytes)
    {streams : List (Endpoint × Reassembly)} {sender : Endpoint}
    (hnone : streams.lookup sender = none) :
    reassemble streams sender bytes = ([packet], streams.filter (·.1 ≠ sender)) := by
  have hread : readStream (Reassembly.empty.held.toList ++ bytes) = ⟨[packet.frame], none, []⟩ := by
    have hencodings : [packet].mapM Packet.encode = .ok [bytes] := by
      rw [List.mapM_cons, hencode]
      rfl
    have hall := readStream_encodings hencodings
    rwa [List.flatten_singleton] at hall
  rw [reassemble, hnone, Option.getD_none, Reassembly.feed_eq Reassembly.waits_empty, hread]
  rfl

/-- The packet is handled if the session listens, its sender is not seated, and no packet of his is
incomplete. -/
theorem move_packet {s : Session} {packet : Packet} {bytes : Bytes} {sender : Endpoint}
    (hencode : packet.encode = .ok bytes) (hlistening : s.isListening = true)
    (hseats : s.seats sender = false) (hnone : s.streams.lookup sender = none) :
    s.move (.event (.datagram sender bytes)) =
      ({ session := { s with streams := s.streams.filter (·.1 ≠ sender) } } : Act).handle sender
        packet := by
  have hfit : bytes.take receiveLimit = bytes := by
    obtain ⟨hsize, rfl⟩ := Packet.encode_eq_ok_iff.mp hencode
    refine List.take_of_length_le (Nat.le_of_lt ?_)
    rw [List.length_append, Header.lawful_layout.length_encode, Header.size_layout]
    exact hsize
  rw [move, happen, if_pos hlistening]
  dsimp only
  rw [receive_of_not_seats hseats, hfit, reassemble_encoding hencode hnone]
  rfl

/-- So it is if no proxy is hosted, and no stream is incomplete. -/
theorem move_datagram {s : Session} {packet : Packet} {bytes : Bytes} (sender : Endpoint)
    (hencode : packet.encode = .ok bytes) (hlistening : s.isListening = true)
    (hhosted : s.hosted = none) (hstreams : s.streams = []) :
    s.move (.event (.datagram sender bytes)) =
      ({ session := s } : Act).handle sender packet := by
  have hseats : s.seats sender = false := by
    rw [seats, hhosted]
    rfl
  have hsame : { s with streams := s.streams.filter (·.1 ≠ sender) } = s := by
    rw [hstreams, List.filter_nil, ← hstreams]
  rw [move_packet hencode hlistening hseats (by rw [hstreams]; rfl), hsame]

/-- A packet that comes in a datagram of its own is handled. It need not be evaluated for this. -/
theorem after_datagram (s : Session) (moves : List Move) {packet : Packet} (sender : Endpoint)
    (hsize : headerSize + packet.payload.length < packetLimit)
    (hlistening : (s.after moves).session.isListening = true)
    (hseats : (s.after moves).session.seats sender = false)
    (hstreams : (s.after moves).session.streams.isEmpty = true) :
    s.after (moves ++ [.event (.datagram sender (packet.encode.toOption.getD []))]) =
      (s.after moves).followedBy
        (({ session := (s.after moves).session } : Act).handle sender packet) := by
  have hencode := Packet.encode_eq_ok_iff.mpr ⟨hsize, rfl⟩
  have hnone := List.isEmpty_iff.mp hstreams
  have hmove := move_packet hencode hlistening hseats (by rw [hnone]; rfl)
  have hsame : { (s.after moves).session with
      streams := (s.after moves).session.streams.filter (·.1 ≠ sender) } =
      (s.after moves).session := by
    rw [hnone, List.filter_nil, ← hnone]
  rw [after_concat, Act.next, hencode]
  rw [hsame] at hmove
  exact congrArg _ hmove

/-! ### Samples -/

def sampleCall (operation : Operation) : Move :=
  .event (.call (.operate operation))

/-- A packet comes from the relay. -/
def sampleDatagram (packet : Packet) : Move :=
  .event (.datagram sample.relay (packet.encode.toOption.getD []))

theorem told_sampleDatagram {s : Session} {packet : Packet}
    (hsize : headerSize + packet.payload.length < packetLimit) (hlistening : s.isListening = true)
    (hseats : s.seats sample.relay = false) (hstreams : s.streams.isEmpty = true) :
    (s.move (sampleDatagram packet)).told =
      (({ session := s } : Act).handle sample.relay packet).told :=
  congrArg Act.told (after_datagram s [] sample.relay hsize hlistening hseats hstreams)

theorem after_sampleDatagram_of_not_seats (moves : List Move) {packet : Packet}
    (hsize : headerSize + packet.payload.length < packetLimit)
    (hlistening : (sample.after moves).session.isListening = true)
    (hseats : (sample.after moves).session.seats sample.relay = false)
    (hstreams : (sample.after moves).session.streams.isEmpty = true) :
    sample.after (moves ++ [sampleDatagram packet]) =
      (sample.after moves).followedBy
        (({ session := (sample.after moves).session } : Act).handle sample.relay packet) :=
  after_datagram sample moves sample.relay hsize hlistening hseats hstreams

theorem after_sampleDatagram (moves : List Move) {packet : Packet}
    (hsize : headerSize + packet.payload.length < packetLimit)
    (hlistening : (sample.after moves).session.isListening = true)
    (hhosted : (sample.after moves).session.hosted.isNone = true)
    (hstreams : (sample.after moves).session.streams.isEmpty = true) :
    sample.after (moves ++ [sampleDatagram packet]) =
      (sample.after moves).followedBy
        (({ session := (sample.after moves).session } : Act).handle sample.relay packet) := by
  refine after_sampleDatagram_of_not_seats moves hsize hlistening ?_ hstreams
  rw [seats, Option.isNone_iff_eq_none.mp hhosted]
  rfl

end LocalPlay.Session
