import LocalPlay.Proofs.Session.Announcement
import LocalPlay.Proofs.Session.Confirmation
import LocalPlay.Proofs.Session.Stretches.Watch

/-!
# Networks and the idle countdown

The idle countdown is meant for sessions that have nothing to do: a scan starts it only outside of
networks, and calls that are to end in a network take it back. But a network begins with a packet of
the relay, and that may come late or unasked. A network that is joined while the countdown is
running is not kept from it, and if it lasts until the countdown ends it is ended with the session.

So the countdown ends no network in exactly the runs in which none that was joined since the
countdown's scan is still there when the stop comes. If the relay confirms networks only to calls
that ask for one, and calls do not come in each other's way, there is no such network.
-/

namespace LocalPlay.Session

open Net Wire Overlay Timing

/-- The countdown has ended, and there is a receive loop to be stopped. -/
def isIdledOut (s : Session) : Bool :=
  .idleStop ∈ s.ready ∧ s.receiver = .listening

/-- Whenever the idle countdown stops the session it is in no network. -/
def SparesNetworks (s : Session) (moves : List Move) : Prop :=
  ∀ early, early ++ [.turn .idleStop] <+: moves → (s.after early).session.isIdledOut = true →
    (s.after early).session.inNetwork = false

/-- The last move that started the countdown came after `early`, and `rest` came since. -/
structure Started (s : Session) (early : List Move) (m : Move) (rest : List Move) : Prop where
  starts : (s.after early).session.startsCountdown m = true
  last : ∀ middle m' later, rest = middle ++ m' :: later →
    (s.after (early ++ m :: middle)).session.startsCountdown m' = false

/-- Since the scan that has started the countdown a network was joined, and it was not left since. -/
def JoinedWhileCounting (s : Session) (moves : List Move) : Prop :=
  ∃ early m rest, moves = early ++ m :: rest ∧ s.Started early m rest ∧
    Joined ((s.after early).session.after (m :: rest)).told

/-- A call is in progress that is to end in a network. -/
def isJoining (s : Session) : Bool :=
  s.waiting.any (·.pause.joins)

/-- The session is in a network, or a call is to end in one. -/
def IsBusy (s : Session) : Prop :=
  s.inNetwork = true ∨ s.isJoining = true

/-- Networks are confirmed to calls that ask for one, scans come when there is no such call, and no
such call comes between the end of the countdown and its stop. -/
structure Considerate (s : Session) (moves : List Move) : Prop where
  solicited : ∀ {early m sender info}, early ++ [m] <+: moves →
    .handled sender (.connected info) ∈ ((s.after early).session.move m).told →
    (s.after early).session.isJoining = true
  apart : ∀ {early filter}, early ++ [.event (.call (.operate (.scan filter)))] <+: moves →
    (s.after early).session.isJoining = false
  prompt : ∀ {early operation}, early ++ [.event (.call (.operate operation))] <+: moves →
    operation.joins = true → .idleStop ∉ (s.after early).session.ready

variable {origin s t : Session} {m : Move} {moves : List Move} {told more : List Notice}

/-! ### The scan that has started the countdown -/

theorem eq_scan_of_startsCountdown (hstarts : s.startsCountdown m = true) :
    (∃ filter, m = .event (.call (.operate (.scan filter)))) ∧ s.inNetwork = false := by
  rw [startsCountdown.eq_def] at hstarts
  split at hstarts
  · rename_i filter
    exact ⟨⟨filter, rfl⟩, (Bool.not_eq_true' _).mp hstarts⟩
  · exact absurd hstarts Bool.false_ne_true

theorem exists_started (hnone : s.isCounting = false)
    (hcounting : (s.after moves).session.isCounting = true) :
    ∃ early m rest, moves = early ++ m :: rest ∧ s.Started early m rest := by
  induction moves using List.reverseRecOn with
  | nil => exact absurd (hnone.symm.trans hcounting) Bool.false_ne_true
  | append_singleton moves m ih =>
    cases hstarts : (s.after moves).session.startsCountdown m with
    | true => exact ⟨moves, m, [], rfl, hstarts, by simp⟩
    | false =>
      rw [after_concat] at hcounting
      rcases isCounting_of_move hcounting with hbefore | hnew
      · obtain ⟨early, first, rest, rfl, hstarted⟩ := ih hbefore
        exact ⟨early, first, rest ++ [m], by simp, hstarted.starts,
          forall_split_concat.mpr ⟨hstarted.last, hstarts⟩⟩
      · exact absurd (hstarts.symm.trans hnew) Bool.false_ne_true

/-- Outside of networks the rest of a run alone says whether it leads into one. -/
theorem inNetwork_after_iff (hnetwork : s.inNetwork = false) (moves : List Move) :
    (s.after moves).session.inNetwork = true ↔ Joined (s.after moves).told := by
  have hannounced : Invariant s moves Announced := by
    refine ⟨⟨?_, fun _ => nofun⟩, fun _ _ h hstep => h.step hstep⟩
    rw [hnetwork]
    exact ⟨nofun, nofun⟩
  exact (hannounced.after List.prefix_rfl).joined

theorem inNetwork_iff_joinedWhileCounting (hnone : s.isCounting = false)
    (hcounting : (s.after moves).session.isCounting = true) :
    (s.after moves).session.inNetwork = true ↔ s.JoinedWhileCounting moves := by
  have hsince {early rest : List Move} {m : Move} (hstarted : s.Started early m rest) :
      (s.after (early ++ m :: rest)).session.inNetwork = true ↔
        Joined ((s.after early).session.after (m :: rest)).told := by
    rw [after_append]
    exact inNetwork_after_iff (eq_scan_of_startsCountdown hstarted.starts).2 (m :: rest)
  constructor
  · intro hnetwork
    obtain ⟨early, m, rest, rfl, hstarted⟩ := exists_started hnone hcounting
    exact ⟨early, m, rest, rfl, hstarted, (hsince hstarted).mp hnetwork⟩
  · rintro ⟨early, m, rest, rfl, hstarted, hjoined⟩
    exact (hsince hstarted).mpr hjoined

/-! ### Considerate runs -/

theorem Step.of_inNetwork (h : Step origin m s t more) (hnetwork : t.inNetwork = true) :
    s.inNetwork = true ∨ ∃ sender info, .handled sender (.connected info) ∈ more := by
  cases h with
  | join sender info => exact .inr ⟨sender, info, List.mem_cons_self⟩
  | leave => exact absurd hnetwork Bool.false_ne_true
  | _ => exact .inl hnetwork

theorem Steps.of_inNetwork (h : Steps origin m s t told) (hnetwork : t.inNetwork = true) :
    s.inNetwork = true ∨ ∃ sender info, .handled sender (.connected info) ∈ told := by
  induction h with
  | refl => exact .inl hnetwork
  | tail _ hstep ih =>
    rcases hstep.of_inNetwork hnetwork with hbefore | ⟨sender, info, hmem⟩
    · exact (ih hbefore).imp id fun ⟨sender, info, hmem⟩ =>
        ⟨sender, info, List.mem_append_left _ hmem⟩
    · exact .inr ⟨sender, info, List.mem_append_right _ hmem⟩

/-- A call that waits for a network was waiting for one before the move or before the step, unless
it begins in this move. -/
theorem Step.of_joins (h : Step origin m s t more) {w : Waiting} (hw : w ∈ t.waiting)
    (hjoins : w.pause.joins = true) :
    (∃ v, (v ∈ origin.waiting ∨ v ∈ s.waiting) ∧ v.pause.joins = true) ∨
      ∃ operation, m = .event (.call (.operate operation)) ∧ operation.joins = true := by
  have hold (hw : w ∈ s.waiting) :
      ∃ v, (v ∈ origin.waiting ∨ v ∈ s.waiting) ∧ v.pause.joins = true := ⟨w, .inr hw, hjoins⟩
  have hnew {call : Nat} {deadline : Option Nat} {pause : Pause}
      (hw : w ∈ s.waiting ++ [⟨call, deadline, pause⟩]) :
      (∃ v, (v ∈ origin.waiting ∨ v ∈ s.waiting) ∧ v.pause.joins = true) ∨ pause.joins = true := by
    rcases List.mem_append.mp hw with hw | hw
    · exact .inl (hold hw)
    · obtain rfl := List.mem_singleton.mp hw
      exact .inr hjoins
  cases h with
  | inform f hcall hplan =>
    obtain ⟨v, hv, rfl⟩ := List.mem_map.mp hw
    refine .inl ⟨v, .inr hv, ?_⟩
    rwa [← Pause.joins_plan, ← hplan, Pause.joins_plan]
  | openLink call operation deadline refusal hmove =>
    exact (hnew hw).imp id fun hjoins => ⟨operation, hmove, hjoins⟩
  | ask call operation deadline refusal hmove =>
    exact (hnew hw).imp id fun hjoins => ⟨operation, hmove, operation.joins_pause ▸ hjoins⟩
  | goOn v operation deadline refusal hmove hwaiting hpause =>
    refine .inl ((hnew hw).elim id fun hjoins => ⟨v, .inl hwaiting, ?_⟩)
    rw [hpause]
    exact operation.joins_pause.symm.trans hjoins
  | wait call deadline pause hmove hbegun hpause =>
    exact .inl ((hnew hw).elim id fun hjoins => absurd (hpause.symm.trans hjoins) Bool.false_ne_true)
  | confirmGuest v outcome deadline guest arrived hmove hwaiting hpause =>
    rcases List.mem_append.mp hw with hw | hw
    · exact .inl (hold (List.mem_filter.mp hw).1)
    · refine .inl ⟨v, .inr hwaiting, Pause.joins_of_awaited ?_⟩
      rw [Pause.joined_mem_awaited_iff, hpause]
      rfl
  | giveUp => exact .inl (hold (List.mem_filter.mp hw).1)
  | waste => exact .inl (hold (List.mem_filter.mp hw).1)
  | confirm => exact .inl (hold (List.mem_filter.mp hw).1)
  | settle => exact .inl (hold (List.mem_filter.mp hw).1)
  | _ => exact .inl (hold hw)

theorem Steps.of_joins (h : Steps origin m origin t told) {w : Waiting} (hw : w ∈ t.waiting)
    (hjoins : w.pause.joins = true) : origin.isJoining = true ∨
      ∃ operation, m = .event (.call (.operate operation)) ∧ operation.joins = true := by
  induction h generalizing w with
  | refl => exact .inl (List.any_eq_true.mpr ⟨w, hw, hjoins⟩)
  | tail _ hstep ih =>
    rcases hstep.of_joins hw hjoins with ⟨v, hv | hv, hjoins⟩ | hcall
    · exact .inl (List.any_eq_true.mpr ⟨v, hv, hjoins⟩)
    · exact ih hv hjoins
    · exact .inr hcall

/-- In a considerate run only calls that are to end in a network lead to one. -/
theorem Considerate.busy_before (h : s.Considerate moves) {early : List Move} {m : Move}
    (hearly : early ++ [m] <+: moves) (hbusy : ((s.after early).session.move m).session.IsBusy) :
    (s.after early).session.IsBusy ∨
      ∃ operation, m = .event (.call (.operate operation)) ∧ operation.joins = true := by
  have hsteps := steps_move (s.after early).session m
  rcases hbusy with hnetwork | hjoining
  · rcases hsteps.of_inNetwork hnetwork with hnetwork | ⟨sender, info, hmem⟩
    · exact .inl (.inl hnetwork)
    · exact .inl (.inr (h.solicited hearly hmem))
  · obtain ⟨w, hw, hjoins⟩ := List.any_eq_true.mp hjoining
    exact (hsteps.of_joins hw hjoins).imp .inr id

/-- The countdown is not running while a network is asked for or joined. -/
theorem Considerate.not_isCounting (h : s.Considerate moves) (hnone : s.isCounting = false)
    {early : List Move} (hearly : early <+: moves) (hbusy : (s.after early).session.IsBusy) :
    (s.after early).session.isCounting = false := by
  induction early using List.reverseRecOn with
  | nil => exact hnone
  | append_singleton early m ih =>
    have hbefore := ih ((List.prefix_append ..).trans hearly)
    rw [after_concat] at hbusy ⊢
    rw [Bool.eq_false_iff]
    intro hcounting
    rcases h.busy_before hearly hbusy with hearlier | ⟨operation, rfl, hjoins⟩
    · -- Nothing starts the countdown: a scan comes neither in a network nor while one is asked for.
      rcases isCounting_of_move hcounting with hcounting | hstarts
      · exact absurd ((hbefore hearlier).symm.trans hcounting) Bool.false_ne_true
      · obtain ⟨⟨filter, rfl⟩, houtside⟩ := eq_scan_of_startsCountdown hstarts
        rcases hearlier with hnetwork | hjoining
        · exact absurd (houtside.symm.trans hnetwork) Bool.false_ne_true
        · exact absurd ((h.apart hearly).symm.trans hjoining) Bool.false_ne_true
    · exact h.prompt hearly hjoins (idleStop_mem_of_join hjoins hcounting)

/-! ### Runs -/

theorem isCounting_of_idledOut (hidle : s.isIdledOut = true) : s.isCounting = true :=
  isCounting_iff.mpr (.inr (of_decide_eq_true hidle).1)

theorem isCounting_create {settings : Settings} {interfaces : Interfaces}
    {localAddress : Except IoError Endpoint}
    (hcreate : create settings interfaces localAddress = .ok s) : s.isCounting = false := by
  obtain ⟨relay, rfl⟩ := create_eq hcreate
  rfl

/-- The idle countdown ends no network in exactly the runs in which no network that was joined since
its scan is there when it stops the session. In considerate runs there is none. -/
theorem spares_networks_iff {settings : Settings} {interfaces : Interfaces}
    {localAddress : Except IoError Endpoint}
    (hcreate : create settings interfaces localAddress = .ok s) (moves : List Move) :
    (s.SparesNetworks moves ↔ ∀ early, early ++ [.turn .idleStop] <+: moves →
      (s.after early).session.isIdledOut = true → ¬ s.JoinedWhileCounting early) ∧
    (s.Considerate moves → s.SparesNetworks moves) := by
  have hnone := isCounting_create hcreate
  constructor
  · refine forall_congr' fun early => imp_congr_right fun _ => forall_congr' fun hidle => ?_
    rw [← inNetwork_iff_joinedWhileCounting hnone (isCounting_of_idledOut hidle),
      Bool.not_eq_true]
  · intro h early hearly hidle
    rw [Bool.eq_false_iff]
    intro hnetwork
    have hstill := h.not_isCounting hnone ((List.prefix_append ..).trans hearly) (.inl hnetwork)
    exact absurd (hstill.symm.trans (isCounting_of_idledOut hidle)) Bool.false_ne_true

/-- A scan, and then nothing. -/
def idleRun : List Move :=
  [sampleCall (.scan default), .reach 6000]

theorem spares_networks_of_idleRun :
    let moves := idleRun ++ [.turn .idleStop]
    create {} (.ok []) (.ok sampleAddress) = .ok sample ∧ sample.SparesNetworks moves ∧
      (sample.after idleRun).session.isIdledOut = true ∧
      ¬ sample.JoinedWhileCounting idleRun := by
  intro moves
  have hcreate : create {} (.ok []) (.ok sampleAddress) = .ok sample := rfl
  have hidle : (sample.after idleRun).session.isIdledOut = true := by decide +kernel
  have hspares : sample.SparesNetworks moves := by
    intro early hearly _
    rcases isPrefix_concat_cases hearly with ⟨rfl, -⟩ | ⟨rest, hrest⟩
    · decide +kernel
    · rcases early with _ | ⟨first, _ | ⟨second, early⟩⟩
      all_goals simp [idleRun, sampleCall] at hrest
  exact ⟨hcreate, hspares, hidle,
    (spares_networks_iff hcreate moves).1.mp hspares idleRun List.prefix_rfl hidle⟩

/-- A station gives up joining and scans. Then its network is confirmed, late, and it is still in it
when the countdown of the scan ends. -/
theorem network_ended_by_countdown :
    let scanned := joiningRun ++ [.reach 4000, .turn (.resume 0), sampleCall (.scan default)]
    let early := scanned ++ [sampleDatagram (.connected default)] ++ [.reach 10000]
    create {} (.ok []) (.ok sampleAddress) = .ok sample ∧
      (sample.after early).session.isIdledOut = true ∧
      (sample.after early).session.inNetwork = true ∧
      (sample.after (early ++ [.turn .idleStop, .turn .cleanup])).session.inNetwork = false ∧
      ¬ sample.SparesNetworks (early ++ [.turn .idleStop]) := by
  intro scanned early
  have hconfirmed : sample.after (scanned ++ [sampleDatagram (.connected default)]) = _ :=
    after_sampleDatagram scanned (by decide +kernel) (by decide +kernel) (by decide +kernel)
      (by decide +kernel)
  have hidle : (sample.after early).session.isIdledOut = true := by
    rw [after_concat, hconfirmed]
    decide +kernel
  have hnetwork : (sample.after early).session.inNetwork = true := by
    rw [after_concat, hconfirmed]
    decide +kernel
  have hended : (sample.after (early ++ [.turn .idleStop, .turn .cleanup])).session.inNetwork =
      false := by
    rw [after_append, after_concat, hconfirmed]
    decide +kernel
  refine ⟨rfl, hidle, hnetwork, hended, fun hspares => ?_⟩
  have hout := hspares early List.prefix_rfl hidle
  exact absurd (hout.symm.trans hnetwork) Bool.false_ne_true

end LocalPlay.Session
