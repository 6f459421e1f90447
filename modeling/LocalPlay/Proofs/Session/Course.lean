import LocalPlay.Proofs.Session.Stretches.Moves
import Mathlib.Data.List.Chain

/-!
# The course of a move

A datagram may complete many packets, and each of them is handled in the state that the one before
it has left. The course of a move is the list of the acts on its way at which nothing is half done:
before the move, before and after every packet, and when it is over. So what holds of all acts in
the courses of a run holds whenever anything could look at the session.

From one act of a course to the next there is a stage. It is a packet that is handled, or the
streams are put in order before the first one, or it is a whole move that handles no packet.
-/

namespace LocalPlay.Session

open Net Wire Overlay Timing

/-- Someone is seated at the hosted proxy under this endpoint. -/
def seats (s : Session) (endpoint : Endpoint) : Bool :=
  s.hosted.any fun host => (host.registry.seatAt? endpoint).isSome

/-- The sender of a datagram that is read, the packets it completes, and the streams that are
incomplete then. What a seated peer sends is left to its worker. -/
def opened? (s : Session) : Move → Option (Endpoint × List Packet × List (Endpoint × Reassembly))
  | .event (.datagram sender bytes) =>
    if s.isListening ∧ ¬ s.seats sender then
      some (sender, reassemble s.streams sender (bytes.take receiveLimit))
    else
      none
  | _ => none

/-- The acts of a move at which nothing is half done. -/
def course (s : Session) (m : Move) : List Act :=
  match s.opened? m with
  | some (sender, packets, streams) =>
    { session := s } :: packets.scanl (fun a packet => a.handle sender packet)
      { session := { s with streams } }
  | none => [{ session := s }, s.move m]

/-! ### What datagrams lead to -/

section Datagrams

variable {s : Session} {m : Move} {sender : Endpoint} {bytes : Bytes}

theorem receive_of_seated {host : Host} (hhost : s.hosted = some host)
    (hseated : (host.registry.seatAt? sender).isSome = true) :
    ({ session := s } : Act).receive sender bytes = ({ session := s } : Act).adopt
      (host.move (.receive sender (bytes.take receiveLimit))) := by
  have hqueued := (host.fst_receive sender (bytes.take receiveLimit)).trans hseated
  rw [Act.receive, hhost]
  dsimp only
  rw [if_pos hqueued]
  rfl

theorem receive_of_not_seats (hseats : s.seats sender = false) :
    ({ session := s } : Act).receive sender bytes =
      (reassemble s.streams sender (bytes.take receiveLimit)).1.foldl
        (fun a packet => a.handle sender packet)
        { session := { s with streams :=
            (reassemble s.streams sender (bytes.take receiveLimit)).2 } } := by
  rw [Act.receive]
  split
  · rename_i hqueued
    split at hqueued
    · rename_i host hhost
      have hhost : s.hosted = some host := hhost
      rw [seats, hhost, Option.any_some] at hseats
      dsimp only at hqueued
      rw [Host.fst_receive, if_neg (Bool.eq_false_iff.mp hseats)] at hqueued
      exact absurd hqueued.symm (Option.some_ne_none _)
    · exact absurd hqueued.symm (Option.some_ne_none _)
  · rfl

theorem opened?_eq_some {packets : List Packet} {streams : List (Endpoint × Reassembly)}
    (hopened : s.opened? m = some (sender, packets, streams)) :
    ∃ bytes, m = .event (.datagram sender bytes) ∧ s.phase ≠ .idle ∧
      s.move m = packets.foldl (fun a packet => a.handle sender packet)
        { session := { s with streams } } := by
  rw [opened?.eq_def] at hopened
  split at hopened
  · rename_i source bytes
    split at hopened
    · rename_i hread
      obtain ⟨rfl, hreassemble⟩ := Prod.mk.inj (Option.some.inj hopened)
      have hseats := Bool.eq_false_iff.mpr hread.2
      refine ⟨bytes, rfl, (decide_eq_true_eq.mp hread.1).1, ?_⟩
      rw [move, happen, if_pos hread.1]
      dsimp only
      rw [receive_of_not_seats hseats, hreassemble]
    · exact absurd hopened.symm (Option.some_ne_none _)
  · exact absurd hopened.symm (Option.some_ne_none _)

/-- A datagram that is not read here goes to the hosted proxy or nowhere. -/
theorem move_of_not_opened (hopened : s.opened? (.event (.datagram sender bytes)) = none) :
    ∃ hosted ready, ∃ notices : List Overlay.Notice, s.move (.event (.datagram sender bytes)) =
      { session := { s with hosted, ready }, told := notices.map .host } := by
  rw [move, happen]
  split
  · rename_i hlistening
    cases hseats : s.seats sender with
    | false => simp [opened?, hlistening, hseats] at hopened
    | true =>
      rw [seats, Option.any_eq_true] at hseats
      obtain ⟨host, hhost, hseated⟩ := hseats
      obtain ⟨ready, hadopt⟩ := ({ session := s } : Act).adopt_eq
        (host.move (.receive sender (bytes.take receiveLimit)))
      dsimp only
      rw [receive_of_seated hhost hseated, hadopt]
      exact ⟨_, ready, _, rfl⟩
  · exact ⟨s.hosted, s.ready, [], rfl⟩

/-- Where no datagram is read no packet is handled. -/
theorem not_handled_of_not_opened (hopened : s.opened? m = none) (source : Endpoint)
    (packet : Packet) : .handled source packet ∉ (s.move m).told := by
  have hproxy (notices : List Overlay.Notice) :
      .handled source packet ∉ notices.map Notice.host := fun hmem => by
    obtain ⟨_, _, hnotice⟩ := List.mem_map.mp hmem
    exact nomatch hnotice
  rcases s.move_cases m with hplain | ⟨sender, bytes, rfl, -, -⟩ | ⟨job, host, rfl, -, -, hmove⟩
  · obtain ⟨more, hmore, hsilent⟩ := hplain.told
    rw [hmore, List.nil_append]
    exact fun hmem => nomatch hsilent _ hmem
  · obtain ⟨hosted, ready, notices, hmove⟩ := move_of_not_opened hopened
    rw [hmove]
    exact hproxy notices
  · obtain ⟨ready, hadopt⟩ := ({ session := { s with ready := s.ready.erase (.host job) } } :
      Act).adopt_eq (host.move (.perform s.clock s.link job))
    rw [hmove, hadopt, List.nil_append]
    exact hproxy _

end Datagrams

/-- Of all that is told while a packet is handled only the first says that one is. -/
theorem Act.told_handle (a : Act) (sender : Endpoint) (packet : Packet) :
    ∃ more, (a.handle sender packet).told = a.told ++ .handled sender packet :: more ∧
      ∀ source other, .handled source other ∉ more := by
  cases hmove : a.session.hostMove? sender packet with
  | none =>
    obtain ⟨more, hmore, hplain⟩ := (Act.plain_handle hmove).told
    exact ⟨more, by rw [hmore, Act.tell, ← List.append_cons],
      fun _ _ hmem => nomatch hplain _ hmem⟩
  | some move =>
    rw [Act.handle_of_hostMove? hmove, Act.atHost]
    split
    · rename_i host _
      obtain ⟨ready, hadopt⟩ := (a.tell (.handled sender packet)).adopt_eq (host.move move)
      refine ⟨(host.move move).notices.map .host, ?_, fun _ _ hmem => ?_⟩
      · rw [hadopt, Act.tell, ← List.append_cons]
      · obtain ⟨_, _, hnotice⟩ := List.mem_map.mp hmem
        cases hnotice
    · exact ⟨[], rfl, fun _ _ => List.not_mem_nil⟩

/-! ### Stages -/

/-- From one act of a course to the next. -/
inductive Stage (s : Session) (m : Move) : Act → Act → Prop
  | whole (hopened : s.opened? m = none) : Stage s m { session := s } (s.move m)
  | reorder (streams : List (Endpoint × Reassembly)) :
    Stage s m { session := s } { session := { s with streams } }
  | packet {a : Act} {sender : Endpoint} {bytes : Bytes} (packet : Packet)
      (hmove : m = .event (.datagram sender bytes)) (hphase : a.session.phase ≠ .idle) :
    Stage s m a (a.handle sender packet)

/-- Every stage can be taken as the beginning of its move. -/
theorem Stage.leads {s : Session} {m : Move} {a b : Act} (h : s.Stage m a b) :
    Act.Leads a.session m a b := by
  cases h with
  | whole => exact leads_move s m
  | reorder streams => exact (Act.Leads.refl _).step (.aside ..) (List.append_nil _).symm
  | packet packet hmove hphase => exact (Act.Leads.refl a).handle packet ⟨_, hmove⟩ hphase

theorem isChain_scanl {α β : Type} {f : β → α → β} {R : β → β → Prop} {p : β → Prop}
    (hR : ∀ b x, p b → R b (f b x)) (hp : ∀ b x, p b → p (f b x)) (xs : List α) {b : β} (hb : p b) :
    (xs.scanl f b).IsChain R := by
  induction xs generalizing b with
  | nil => exact .singleton b
  | cons x xs ih =>
    rw [List.scanl_cons, List.isChain_cons]
    refine ⟨fun y hy => ?_, ih (hp b x hb)⟩
    rw [List.head?_scanl] at hy
    obtain rfl := Option.some.inj hy
    exact hR b x hb

theorem isChain_course (s : Session) (m : Move) : (s.course m).IsChain (s.Stage m) := by
  rw [course]
  split
  · rename_i sender packets streams hopened
    obtain ⟨bytes, hmove, hphase, -⟩ := opened?_eq_some hopened
    -- The link is open at the first packet, and handling packets keeps it open.
    have hpackets : (packets.scanl (fun a packet => a.handle sender packet)
        ({ session := { s with streams } } : Act)).IsChain (s.Stage m) := by
      refine isChain_scanl (p := fun a : Act => a.session.phase ≠ .idle)
        (fun a packet ha => .packet packet hmove ha) (fun a packet ha => ?_) packets hphase
      obtain ⟨told, -, hsteps⟩ := 
        (Act.Leads.refl a : Act.Leads s m a a).handle packet ⟨bytes, hmove⟩ ha
      rw [hmove] at hsteps
      exact hsteps.phase_ne_idle ha
    refine List.isChain_cons.mpr ⟨fun b hb => ?_, hpackets⟩
    rw [List.head?_scanl] at hb
    obtain rfl := Option.some.inj hb
    exact .reorder streams
  · rename_i hopened
    exact List.isChain_pair.mpr (.whole hopened)

theorem getLast?_course (s : Session) (m : Move) : (s.course m).getLast? = some (s.move m) := by
  rw [course]
  split
  · rename_i sender packets streams hopened
    obtain ⟨bytes, -, -, hmove⟩ := opened?_eq_some hopened
    rw [List.getLast?_cons, List.getLast?_scanl, hmove]
    rfl
  · rfl

theorem head?_course (s : Session) (m : Move) : (s.course m).head? = some { session := s } := by
  rw [course]
  split
  · rfl
  · rfl

theorem exists_course_start (s : Session) (m : Move) :
    ∃ a ∈ s.course m, a.session = s ∧ a.told = [] :=
  ⟨_, List.mem_of_head? (s.head?_course m), rfl, rfl⟩

/-- What holds in all courses after a run holds after the run. -/
theorem after_of_course {P : Session → Prop} {s : Session} {moves : List Move}
    (hcourse : ∀ m, ∀ a ∈ (s.after moves).session.course m, P a.session) :
    P (s.after moves).session := by
  obtain ⟨a, ha, hsession, -⟩ := (s.after moves).session.exists_course_start (.reach 0)
  rw [← hsession]
  exact hcourse _ a ha

/-- What holds at first and is kept by every stage holds of all acts in all courses of a run. -/
theorem course_induction {P : List Notice → Session → Prop} {s : Session} (hinitial : P [] s)
    (hstage : ∀ {history : List Notice} {t : Session} {m : Move} {a b : Act}, t.Stage m a b →
      P (history ++ a.told) a.session → P (history ++ b.told) b.session)
    (moves : List Move) (m : Move) :
    ∀ a ∈ (s.after moves).session.course m, P ((s.after moves).told ++ a.told) a.session := by
  have hcourse {history : List Notice} {t : Session} (ht : P history t) (m : Move) :
      ∀ a ∈ t.course m, P (history ++ a.told) a.session := by
    refine (t.isChain_course m).induction (fun a => P (history ++ a.told) a.session) _
      (fun _ _ h => hstage h) fun hne => ?_
    have hhead := t.head?_course m
    rw [List.head?_eq_some_head hne] at hhead
    rw [Option.some.inj hhead, List.append_nil]
    exact ht
  have hmoves : P (s.after moves).told (s.after moves).session := by
    induction moves using List.reverseRecOn with
    | nil => exact hinitial
    | append_singleton moves m ih =>
      rw [after_concat]
      exact hcourse ih m _ (List.mem_of_getLast? (getLast?_course _ m))
  exact hcourse hmoves m

end LocalPlay.Session
