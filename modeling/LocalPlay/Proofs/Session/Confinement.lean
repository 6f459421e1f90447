import LocalPlay.Proofs.Overlay.Confinement
import LocalPlay.Proofs.Session.Course
import LocalPlay.Proofs.Session.Provenance

/-!
# What joined peers can bring about

A peer that is seated at the hosted proxy speaks to its worker and to nobody else: the receive loop
hands everything it sends to the proxy, before it looks at it. So whatever the bytes are, the
session stays as it is but for the proxy, and for jobs of the peer's seat that become ready; the
proxy in turn is `Host.Confined`.

`Confined` says this of an act. The peer's datagram begins one, and every turn of such a job, at
whatever time, keeps it. A session at rest settles by these turns alone: each leaves less to do, and
there are turns enough for all.
-/

namespace LocalPlay.Session

open Net Wire Overlay Timing

/-! ### What every hosted proxy has -/

namespace Act

/-- The hosted proxy has the property, if there is one. -/
def Hosts (P : Host → Prop) (a : Act) : Prop :=
  ∀ host, a.session.hosted = some host → P host

namespace Hosts

variable {P : Host → Prop} {a b : Act}

theorem plain (hempty : ∀ host : Host, host.registry = {} → P host) (h : a.Hosts P)
    (hplain : a.Plain b) : b.Hosts P := by
  intro host hhost
  rcases hplain.hosted with hsame | hnew
  · exact h host (hsame ▸ hhost)
  · exact hempty host (hnew host hhost)

theorem adopt (hmove : ∀ host, P host → ∀ move, P (host.move move).host) (h : a.Hosts P)
    {host : Host} (hhost : a.session.hosted = some host) (move : Host.Move) :
    (a.adopt (host.move move)).Hosts P := by
  obtain ⟨ready, hadopt⟩ := a.adopt_eq (host.move move)
  rw [hadopt]
  rintro _ ⟨⟩
  exact hmove host (h host hhost) move

theorem handle (hempty : ∀ host : Host, host.registry = {} → P host)
    (hmove : ∀ host, P host → ∀ move, P (host.move move).host) (h : a.Hosts P) (sender : Endpoint)
    (packet : Packet) : (a.handle sender packet).Hosts P := by
  have htold : (a.tell (.handled sender packet)).Hosts P := h
  cases hhostMove : a.session.hostMove? sender packet with
  | none => exact htold.plain hempty (Act.plain_handle hhostMove)
  | some move =>
    rw [Act.handle_of_hostMove? hhostMove, Act.atHost]
    split
    · rename_i host hhost
      exact htold.adopt hmove hhost move
    · exact htold

theorem move (hempty : ∀ host : Host, host.registry = {} → P host)
    (hmove : ∀ host, P host → ∀ move, P (host.move move).host) {s : Session}
    (h : ({ session := s } : Act).Hosts P) (m : Move) : (s.move m).Hosts P := by
  rcases s.move_cases m with
    hplain | ⟨sender, bytes, rfl, _, hreceive⟩ | ⟨job, host, rfl, _, hhost, hjob⟩
  · exact h.plain hempty hplain
  · rw [hreceive]
    rcases ({ session := s } : Act).receive_cases sender bytes with ⟨host, hhost, hadopt⟩ | hpackets
    · rw [hadopt]
      exact h.adopt hmove hhost _
    · rw [hpackets]
      refine List.foldlRecOn (motive := Act.Hosts P) _ _ h fun b hb packet _ => ?_
      exact hb.handle hempty hmove sender packet
  · rw [hjob]
    have hstart : ({ session := { s with ready := s.ready.erase (.host job) } } : Act).Hosts P := h
    exact hstart.adopt hmove hhost (.perform _ _ job)

end Hosts

end Act

/-- What new proxies have and no move of them breaks, the hosted proxy has whenever there is one. -/
theorem hosts_after {P : Host → Prop} (hempty : ∀ host : Host, host.registry = {} → P host)
    (hmove : ∀ host, P host → ∀ move, P (host.move move).host) {s : Session}
    (hhosted : s.hosted = none) (moves : List Move) : (s.after moves).Hosts P := by
  induction moves using List.reverseRecOn with
  | nil => exact fun host hhost => nomatch hhosted.symm.trans hhost
  | append_singleton moves m ih =>
    rw [after_concat]
    have hsession : ({ session := (s.after moves).session } : Act).Hosts P := ih
    exact hsession.move hempty hmove m

/-! ### Acts -/

theorem Act.mem_ready_wake {a : Act} {activity other : Activity}
    (hmem : activity ∈ (a.wake other).session.ready) :
    activity ∈ a.session.ready ∨ activity = other := by
  rw [wake, update] at hmem
  dsimp only at hmem
  split at hmem
  · exact .inl hmem
  · exact (List.mem_append.mp hmem).imp id List.mem_singleton.mp

/-- Taking over a scene makes nothing ready but its jobs. -/
theorem Act.mem_ready_adopt {a : Act} {scene : Scene} {activity : Activity}
    (hmem : activity ∈ (a.adopt scene).session.ready) :
    activity ∈ a.session.ready ∨ ∃ job ∈ scene.jobs, activity = .host job := by
  have hwake (jobs : List Job) (a : Act)
      (hmem : activity ∈ (jobs.foldl (fun a job => a.wake (.host job)) a).session.ready) :
      activity ∈ a.session.ready ∨ ∃ job ∈ jobs, activity = .host job := by
    induction jobs generalizing a with
    | nil => exact .inl hmem
    | cons job jobs ih =>
      rcases ih _ hmem with hready | ⟨other, hother, hactivity⟩
      · rcases mem_ready_wake hready with hready | hactivity
        · exact .inl hready
        · exact .inr ⟨job, List.mem_cons_self, hactivity⟩
      · exact .inr ⟨other, List.mem_cons_of_mem _ hother, hactivity⟩
  have hwoken := hwake scene.jobs _ hmem
  exact hwoken

/-- If nothing is ready, a scene with one job at most makes just that ready. -/
theorem Act.adopt_of_ready_nil {a : Act} (hready : a.session.ready = []) {scene : Scene}
    (hjobs : scene.jobs.length ≤ 1) :
    a.adopt scene =
      { session := { a.session with hosted := some scene.host, ready := scene.jobs.map .host }
        told := a.told ++ scene.notices.map .host } := by
  rw [adopt, update]
  rcases hscene : scene.jobs with _ | ⟨job, jobs⟩
  · rw [List.foldl_nil, List.map_nil, ← hready]
  · have hnew : Activity.host job ∉ a.session.ready := hready ▸ List.not_mem_nil
    obtain rfl : jobs = [] := by
      rw [hscene, List.length_cons] at hjobs
      exact List.length_eq_zero_iff.mp (Nat.le_zero.mp (Nat.le_of_succ_le_succ hjobs))
    rw [List.foldl_cons, List.foldl_nil, wake, update]
    dsimp only
    rw [if_neg hnew, hready, List.nil_append, List.map_singleton]

/-- The session was `s`, with `host` as its proxy, and only the peer in the seat has had a hand in
it since. -/
def Act.Confined (s : Session) (host : Host) (seat : Seat) (a : Act) : Prop :=
  ∃ next ready notices,
    a = { session := { s with hosted := some next, ready }, told := notices.map .host } ∧
    host.Confined seat next notices ∧
    ∀ activity ∈ ready, activity ∈ s.ready ∨ ∃ job : Job, job.IsOf seat.id ∧ activity = .host job

variable {s : Session} {host : Host} {seat : Seat}

/-- The proxy and what is ready are all that a scene confined to the peer changes. -/
theorem Act.Confined.adopt {a : Act} {ready : List Activity} {h : Host}
    {notices : List Overlay.Notice} {scene : Scene}
    (ha : a = { session := { s with hosted := some h, ready }, told := notices.map .host })
    (hready : ∀ activity ∈ ready,
      activity ∈ s.ready ∨ ∃ job : Job, job.IsOf seat.id ∧ activity = .host job)
    (hjobs : Sole seat.id scene.jobs)
    (hconfined : host.Confined seat scene.host (notices ++ scene.notices)) :
    (a.followedBy (({ session := a.session } : Act).adopt scene)).Confined s host seat := by
  obtain ⟨woken, hadopt⟩ := ({ session := a.session } : Act).adopt_eq scene
  have hwoken : (({ session := a.session } : Act).adopt scene).session.ready = woken := by
    rw [hadopt]
  subst ha
  refine ⟨scene.host, woken, notices ++ scene.notices, ?_, hconfined, fun activity hmem => ?_⟩
  · rw [hadopt, List.map_append]
    rfl
  · rw [← hwoken] at hmem
    rcases mem_ready_adopt hmem with hmem | ⟨job, hjob, hactivity⟩
    · exact hready activity hmem
    · exact .inr ⟨job, hjobs.isOf job hjob, hactivity⟩

/-- A datagram of the peer goes to the proxy, if anyone listens at all. -/
theorem move_datagram_of_seated (hhosted : s.hosted = some host) {endpoint : Endpoint}
    (hseat : host.registry.seatAt? endpoint = some seat) (datagram : Bytes) :
    ∃ scene, s.move (.event (.datagram endpoint datagram)) =
        ({ session := s } : Act).adopt scene ∧
      host.Confined seat scene.host scene.notices ∧ Sole seat.id scene.jobs := by
  obtain rfl : seat.endpoint = endpoint := key_of_find? hseat
  rw [move, happen]
  split
  · exact ⟨_, receive_of_seated hhosted (Option.isSome_of_eq_some hseat),
      Host.Confined.receive hseat (datagram.take receiveLimit)⟩
  · refine ⟨{ host }, ?_, .refl host seat, .nil⟩
    rw [Act.adopt, Act.update, ← hhosted]
    rfl

theorem Act.Confined.datagram (hhosted : s.hosted = some host) {endpoint : Endpoint}
    (hseat : host.registry.seatAt? endpoint = some seat) (datagram : Bytes) :
    (({ session := s } : Act).next (.event (.datagram endpoint datagram))).Confined s host
      seat := by
  obtain ⟨scene, hmove, hconfined, hjobs⟩ := move_datagram_of_seated hhosted hseat datagram
  have hstart : ({ session := s } : Act) =
      { session := { s with hosted := some host, ready := s.ready },
        told := ([] : List Overlay.Notice).map .host } := by
    rw [← hhosted]
    rfl
  have hfirst : host.Confined seat scene.host ([] ++ scene.notices) := hconfined
  rw [Act.next, hmove]
  exact Confined.adopt hstart (fun _ => .inl) hjobs hfirst

theorem Act.perform_host (s : Session) (host : Host) (ready : List Activity) (job : Job) :
    ({ session := { s with hosted := some host, ready } } : Act).perform (.host job) =
      ({ session := { s with hosted := some host, ready } } : Act).adopt
        (host.perform s.clock ({ s with hosted := some host, ready } : Session).link job) :=
  rfl

theorem Act.Confined.turn {a : Act} (h : a.Confined s host seat) (hseated : host.Seated)
    (hseat : seat ∈ host.registry.seats) {job : Job} (hjob : job.IsOf seat.id) :
    (a.next (.turn (.host job))).Confined s host seat := by
  obtain ⟨next, ready, notices, rfl, hconfined, hready⟩ := h
  rw [Act.next, Session.move]
  dsimp only
  split
  · have herased : ∀ activity ∈ ready.erase (.host job),
        activity ∈ s.ready ∨ ∃ job : Job, job.IsOf seat.id ∧ activity = .host job :=
      fun activity hmem => hready activity (List.mem_of_mem_erase hmem)
    have hscene := hconfined.perform hseated hseat s.clock
      ({ s with hosted := some next, ready := ready.erase (.host job) } : Session).link hjob
    rw [perform_host]
    exact Confined.adopt rfl herased hscene.sole hscene.confined
  · refine ⟨next, ready, notices, ?_, hconfined, hready⟩
    rw [Act.followedBy, List.append_nil]

/-! ### Settling -/

theorem settleWithin_of_ready_nil (hready : s.ready = []) (turns : Nat) :
    machine.settleWithin turns s = (s, []) := by
  cases turns with
  | zero => rfl
  | succ turns =>
    have hturn : machine.turn s = none := by
      show s.turn = none
      rw [turn, hready]
    rw [Machine.settleWithin, hturn]

/-- The peer's work is done when nothing is left of it, and every turn leaves less. -/
theorem settleWithin_confined (hseated : host.Seated) (hseat : seat ∈ host.registry.seats)
    (turns : Nat) {h : Host} {notices : List Overlay.Notice} {jobs : List Job}
    (hconfined : host.Confined seat h notices) (hjobs : Sole seat.id jobs)
    (hturns : h.effort seat.id + Job.weights jobs ≤ turns) :
    ∃ next more, machine.settleWithin turns { s with hosted := some h, ready := jobs.map .host } =
        ({ s with hosted := some next, ready := [] }, more.map .host) ∧
      host.Confined seat next (notices ++ more) := by
  -- On the turns that are allowed; what is left to do is less after each, and never more than they.
  induction turns generalizing h notices jobs with
  | zero =>
    rcases hjobs with rfl | ⟨job, rfl, rfl | rfl⟩
    · exact ⟨h, [], rfl, by rwa [List.append_nil]⟩
    · exact absurd hturns (Nat.not_succ_le_zero _)
    · exact absurd hturns (Nat.not_succ_le_zero _)
  | succ turns ih =>
    rcases hjobs with rfl | ⟨job, rfl, hjob⟩
    · exact ⟨h, [], settleWithin_of_ready_nil rfl _, by rwa [List.append_nil]⟩
    · have hscene := hconfined.perform hseated hseat s.clock
        ({ s with hosted := some h, ready := [] } : Session).link hjob
      have hperform := Act.perform_host s h [] job
      generalize h.perform s.clock _ job = scene at hscene hperform
      rw [Act.adopt_of_ready_nil rfl hscene.sole.length_le] at hperform
      have hturn : machine.turn { s with hosted := some h, ready := [job].map .host } = some
          ({ s with hosted := some scene.host, ready := scene.jobs.map .host },
            scene.notices.map .host) := by
        have hact := congrArg (fun act : Act => some (act.session, act.told)) hperform
        exact hact
      obtain ⟨last, more, hsettle, hlast⟩ := ih hscene.confined hscene.sole
        (Nat.le_of_lt_succ (Nat.lt_of_lt_of_le hscene.less hturns))
      refine ⟨last, scene.notices ++ more, ?_, List.append_assoc .. ▸ hlast⟩
      rw [Machine.settleWithin, hturn]
      dsimp only
      rw [hsettle, List.map_append]

/-- A session at rest that hosts a proxy settles by turns of the peer's jobs alone. -/
theorem step_confined (hhosted : s.hosted = some host) (hseated : host.Seated)
    {endpoint : Endpoint} (hseat : host.registry.seatAt? endpoint = some seat)
    (hready : s.ready = []) (datagram : Bytes) :
    ∃ next notices, (s.step (.datagram endpoint datagram)).2 =
        ({ s with hosted := some next }, notices.map .host) ∧
      host.Confined seat next notices := by
  obtain ⟨scene, hmove, hconfined, hjobs⟩ := move_datagram_of_seated hhosted hseat datagram
  rw [Act.adopt_of_ready_nil hready hjobs.length_le] at hmove
  have hturns : scene.host.effort seat.id + Job.weights scene.jobs ≤
      machine.turns { s with hosted := some scene.host, ready := scene.jobs.map .host } := by
    have heffort := scene.host.effort_le_backlog seat.id
    have hweight := hjobs.weight_le
    show _ ≤ 8 * ((scene.jobs.map Activity.host).length + s.waiting.length +
      scene.host.backlog) + 16
    omega
  obtain ⟨last, more, hsettle, hlast⟩ := settleWithin_confined hseated
    (List.mem_of_find?_eq_some hseat) _ hconfined hjobs hturns
  refine ⟨last, scene.notices ++ more, ?_, hlast⟩
  have hhappen : (s.happen (.datagram endpoint datagram)).2 = _ := hmove
  rw [step]
  dsimp only
  rw [hhappen, Machine.settle, hsettle, List.map_append, ← hready]
  rfl

/-! ### Any run -/

/-- Whatever a peer that is seated at the hosted proxy sends, and however often jobs of its seat
have their turns afterwards, the session stays as it was but for these jobs and for the proxy, which
is confined to the peer's doing, and only the proxy has anything to say. At rest that is all that
happens, and the session is at rest again. -/
theorem seated_peer_confined {settings : Settings} {interfaces : Interfaces}
    {localAddress : Except IoError Endpoint}
    (hcreate : create settings interfaces localAddress = .ok s) (moves : List Move)
    (hhosted : (s.after moves).session.hosted = some host) {endpoint : Endpoint}
    (hseat : host.registry.seatAt? endpoint = some seat) (datagram : Bytes) :
    (∀ jobs : List Job, (∀ job ∈ jobs, job.IsOf seat.id) →
      ((s.after moves).session.after (.event (.datagram endpoint datagram) ::
        jobs.map fun job => .turn (.host job))).Confined (s.after moves).session host seat) ∧
    ((s.after moves).session.ready = [] →
      ∃ next notices, ((s.after moves).session.step (.datagram endpoint datagram)).2 =
          ({ (s.after moves).session with hosted := some next }, notices.map .host) ∧
        host.Confined seat next notices) := by
  obtain ⟨hnone, -⟩ := new_of_create hcreate
  have hseated : host.Seated := hosts_after (fun _ => Host.seated_of_empty)
    (fun _ h => h.move) hnone moves host hhosted
  have hmem := List.mem_of_find?_eq_some hseat
  refine ⟨fun jobs hjobs => ?_, fun hready => step_confined hhosted hseated hseat hready datagram⟩
  generalize (s.after moves).session = t at hhosted ⊢
  rw [after, List.foldl_cons, List.foldl_map]
  refine List.foldlRecOn (motive := Act.Confined t host seat) jobs _
    (Act.Confined.datagram hhosted hseat datagram) fun a ha job hjob => ?_
  exact ha.turn hseated hmem (hjobs job hjob)

/-- Bytes that no packet begins with. -/
def sampleNoise : Bytes :=
  List.replicate headerSize 0

/-- A peer is let in, and nothing is left to do. -/
def seatedRun : List Move :=
  sampleRun sample.relay ++ [.turn (.resume 0)]

/-- The peer is let in, sends noise, and loses its seat. -/
theorem seated_peer_confined_noise :
    let t := (sample.after seatedRun).session
    create {} (.ok []) (.ok sampleAddress) = .ok sample ∧
      ∃ host, t.hosted = some host ∧
        host.registry.seatAt? samplePeer = some ⟨0, samplePeer, 1⟩ ∧ t.ready = [] ∧
        (∃ next notices, (t.step (.datagram samplePeer sampleNoise)).2 =
            ({ t with hosted := some next }, notices.map .host) ∧
          host.Confined ⟨0, samplePeer, 1⟩ next notices ∧ next.registry.seats = []) := by
  intro t
  have hready : t.ready = [] := List.isEmpty_iff.mp (by decide +kernel)
  have hcreate : create {} (.ok []) (.ok sampleAddress) = .ok sample := rfl
  have hseats : t.hosted.bind (·.registry.seatAt? samplePeer) = some ⟨0, samplePeer, 1⟩ := by
    decide +kernel
  obtain ⟨host, hhosted, hseat⟩ := Option.bind_eq_some_iff.mp hseats
  have hempty : (t.step (.datagram samplePeer sampleNoise)).2.1.hosted.map (·.registry.seats) =
      some [] := by decide +kernel
  obtain ⟨next, notices, hstep, hconfined⟩ : ∃ next notices,
      (t.step (.datagram samplePeer sampleNoise)).2 =
        ({ t with hosted := some next }, notices.map .host) ∧
      host.Confined ⟨0, samplePeer, 1⟩ next notices :=
    (seated_peer_confined hcreate seatedRun hhosted hseat sampleNoise).2 hready
  refine ⟨rfl, host, hhosted, hseat, hready, next, notices, hstep, hconfined, ?_⟩
  generalize (t.step (.datagram samplePeer sampleNoise)).2 = settled at hstep hempty
  rw [hstep] at hempty
  exact Option.some.inj hempty

end LocalPlay.Session
