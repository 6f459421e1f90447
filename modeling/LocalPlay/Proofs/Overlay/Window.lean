import LocalPlay.Proofs.Overlay.Reach
import LocalPlay.Proofs.Overlay.Service
import LocalPlay.Proofs.Timing.Schedule

/-!
# No wakeup is lost

An applicant that looked at the tokens and found nothing waits for a token to come or for its time
to be over. Both wake it, so at any time it is about to look again, or it has time left and there is
nothing for it to find: that is `Attended`, kept by whatever a service does. When the service is
settled nobody is about to look, and so whoever still waits has time left and nothing to find. Nobody
is kept waiting beyond the end of its time either, as the clock stops there for a last look.
-/

namespace LocalPlay.Overlay

open Net Wire Timing

open Host (Move)

theorem Registry.tokens_subset_of_claim? {r : Registry} {id : Nat} {endpoint : Endpoint}
    {presented : Block 16} {claim : Claim} (hclaim : r.claim? id endpoint presented = some claim) :
    claim.registry.tokens ⊆ r.tokens := by
  obtain ⟨_, _, _, older, newer, htokens, hrest, _⟩ := claim?_spec hclaim
  rw [htokens, hrest]
  intro token hmem
  rcases List.mem_append.mp hmem with hmem | hmem
  · exact List.mem_append_left _ hmem
  · exact List.mem_append_right _ (List.mem_cons_of_mem _ hmem)

namespace Service

variable {authWait : Nat} {moves : List Move} {s t : Service}

/-- The applicant is about to look, or it has time left and nothing to find. -/
def Looks (s : Service) (applicant : Applicant) : Prop :=
  .consider applicant.id ∈ s.ready ∨ (s.clock < applicant.deadline ∧
    ∀ token ∈ s.host.registry.tokens, ¬ admits applicant.presented applicant.endpoint token = true)

/-- Nobody's time is over without a last look, and nobody overlooks a token. -/
structure Attended (s : Service) : Prop where
  within : ∀ applicant ∈ s.host.applicants, s.clock ≤ applicant.deadline
  looks : ∀ applicant ∈ s.host.applicants, s.Looks applicant

/-! ### What keeps applicants attended -/

/-- A look that is due stays so, and one in vain need not be repeated without a new token. -/
theorem Looks.mono {applicant : Applicant} (h : s.Looks applicant)
    (hready : .consider applicant.id ∈ s.ready → .consider applicant.id ∈ t.ready)
    (hclock : t.clock = s.clock) (htokens : t.host.registry.tokens ⊆ s.host.registry.tokens) :
    t.Looks applicant := by
  rcases h with hdue | ⟨htime, hnone⟩
  · exact .inl (hready hdue)
  · exact .inr ⟨hclock ▸ htime, fun token hmem => hnone token (htokens hmem)⟩

theorem mem_ready_after {job other : Job} (hne : other ≠ job) (hother : other ∈ s.ready) :
    other ∈ (s.after job).ready :=
  mem_ready_adopt.mpr (.inl ((List.mem_erase_of_ne hne).mpr hother))

/-- What is of no concern to the applicants wakes all of them, or brings no token. -/
theorem Looks.aside {applicant : Applicant} {move : Move} {scene : Scene} (h : s.Looks applicant)
    (hquiet : s.host.Undisturbed move scene) (hmem : applicant ∈ s.host.applicants)
    (hready : .consider applicant.id ∈ s.ready → .consider applicant.id ∈ t.ready)
    (hwoken : ∀ job ∈ scene.jobs, job ∈ t.ready) (hclock : t.clock = s.clock)
    (hhost : t.host = scene.host) : t.Looks applicant := by
  by_cases hall : ∀ applicant ∈ s.host.applicants, .consider applicant.id ∈ scene.jobs
  · exact .inl (hwoken _ (hall applicant hmem))
  · refine h.mono hready hclock fun token htoken => ?_
    rw [hhost] at htoken
    exact (hquiet.woken token htoken).resolve_right hall

theorem Attended.call (h : s.Attended) {move : Move} (hcall : move.IsCall s.clock s.link) :
    (s.adopt (s.host.move move)).Attended := by
  have hhearing := s.host.hearing move
  generalize s.host.move move = scene at hhearing ⊢
  cases hhearing with
  | aside hquiet =>
    refine ⟨fun applicant hmem => ?_, fun applicant hmem => ?_⟩
    · exact h.within applicant (hquiet.applicants ▸ hmem)
    · have hold : applicant ∈ s.host.applicants := hquiet.applicants ▸ hmem
      exact (h.looks applicant hold).aside hquiet hold (fun hdue => mem_ready_adopt.mpr (.inl hdue))
        (fun job hjob => mem_ready_adopt.mpr (.inr hjob)) rfl rfl
  | applied now endpoint offer =>
    obtain rfl : now = s.clock := hcall
    refine ⟨fun applicant hmem => ?_, fun applicant hmem => ?_⟩
    · rcases List.mem_append.mp hmem with hmem | hmem
      · exact h.within applicant hmem
      · obtain rfl := List.mem_singleton.mp hmem
        exact Nat.le_add_right _ _
    · rcases List.mem_append.mp hmem with hmem | hmem
      · exact (h.looks applicant hmem).mono (fun hdue => mem_ready_adopt.mpr (.inl hdue)) rfl
          (List.Subset.refl _)
      · obtain rfl := List.mem_singleton.mp hmem
        exact .inl (mem_ready_adopt.mpr (.inr (List.mem_singleton_self _)))
  | waitsOn => exact hcall.elim
  | turnedAway => exact hcall.elim
  | letIn => exact hcall.elim

/-- An applicant has its answer, and nothing changes for the others. -/
theorem Attended.drop (h : s.Attended) {id : Nat} {scene : Scene}
    (hscene : s.host.perform s.clock s.link (.consider id) = scene)
    (happlicants : scene.host.applicants = (s.host.dropApplicant id).applicants)
    (htokens : scene.host.registry.tokens ⊆ s.host.registry.tokens) :
    (s.after (.consider id)).Attended := by
  have hhost : (s.after (.consider id)).host = scene.host := hscene ▸ rfl
  have hleft {applicant : Applicant} (hmem : applicant ∈ (s.after (.consider id)).host.applicants) :
      applicant ∈ s.host.applicants ∧ applicant.id ≠ id := by
    rw [hhost, happlicants] at hmem
    exact Host.mem_applicants_dropApplicant.mp hmem
  refine ⟨fun applicant hmem => h.within applicant (hleft hmem).1, fun applicant hmem => ?_⟩
  obtain ⟨hold, hne⟩ := hleft hmem
  refine (h.looks applicant hold).mono (mem_ready_after (by simp [hne])) rfl ?_
  rw [hhost]
  exact htokens

theorem Attended.turn (h : s.Attended)
    (hnumbered : Numbered (s.host.applicants.map (·.id)) s.host.applications) (job : Job) :
    (s.after job).Attended := by
  have hhearing := s.host.hearing (.perform s.clock s.link job)
  generalize hscene : s.host.move (.perform s.clock s.link job) = scene at hhearing
  have hhost : (s.after job).host = scene.host := hscene ▸ rfl
  cases hhearing with
  | aside hquiet =>
    refine ⟨fun applicant hmem => ?_, fun applicant hmem => ?_⟩
    · rw [hhost, hquiet.applicants] at hmem
      exact h.within applicant hmem
    · rw [hhost, hquiet.applicants] at hmem
      have hne : Job.consider applicant.id ≠ job := by
        rintro rfl
        simpa [Move.look?] using hquiet.look?
      refine (h.looks applicant hmem).aside hquiet hmem (mem_ready_after hne) ?_ rfl hhost
      intro other hother
      have hjobs : (s.host.perform s.clock s.link job).jobs = scene.jobs :=
        congrArg Scene.jobs hscene
      exact mem_ready_adopt.mpr (.inr (hjobs ▸ hother))
  | @waitsOn _ _ id hlook =>
    have hsame : (s.after (.consider id)).host = s.host := hhost
    refine ⟨fun applicant hmem => ?_, fun applicant hmem => ?_⟩
    · rw [hsame] at hmem
      exact h.within applicant hmem
    · rw [hsame] at hmem
      by_cases hid : applicant.id = id
      · -- It has just looked.
        have hfind := hnumbered.find?_eq hmem
        rw [hid] at hfind
        obtain ⟨hclaim, htime⟩ := hlook applicant hfind
        refine .inr ⟨htime, ?_⟩
        rw [hsame]
        exact Host.claim?_eq_none_iff.mp hclaim
      · refine (h.looks applicant hmem).mono (mem_ready_after (by simp [hid])) rfl ?_
        rw [hsame]
        exact List.Subset.refl _
  | turnedAway => exact h.drop hscene rfl (List.Subset.refl _)
  | letIn _ hclaim => exact h.drop hscene rfl (Registry.tokens_subset_of_claim? hclaim)

/-- In a settled service whoever waits has time left and nothing to find. -/
theorem Attended.settled (h : s.Attended) (hready : s.ready = []) {applicant : Applicant}
    (hmem : applicant ∈ s.host.applicants) :
    s.clock < applicant.deadline ∧ ∀ token ∈ s.host.registry.tokens,
      ¬ admits applicant.presented applicant.endpoint token = true := by
  have hlooks := h.looks applicant hmem
  rw [Looks, hready] at hlooks
  exact hlooks.resolve_left List.not_mem_nil

theorem Attended.pass (h : s.Attended) {time : Nat} (hready : s.ready = [])
    (hdue : ∀ applicant ∈ s.host.applicants, time ≤ applicant.deadline) :
    (machine.reach time s).Attended := by
  refine ⟨hdue, fun applicant hmem => ?_⟩
  by_cases hover : applicant.deadline ≤ time
  · refine .inl (mem_foldl_enqueue.mpr (.inr (List.mem_map.mpr ⟨applicant, ?_, rfl⟩)))
    exact List.mem_filter.mpr ⟨hmem, decide_eq_true hover⟩
  · exact .inr ⟨Nat.lt_of_not_le hover, (h.settled hready hmem).2⟩

theorem Run.attended (h : Run authWait moves s) : s.Attended := by
  induction h with
  | start => exact ⟨fun _ => nofun, fun _ => nofun⟩
  | call _ _ hcall ih => exact ih.call hcall
  | fault _ _ ih =>
    exact ⟨ih.within, fun applicant hmem =>
      (ih.looks applicant hmem).mono (fun hdue => hdue) rfl (List.Subset.refl _)⟩
  | @turn moves s hrun job _ ih =>
    refine ih.turn ?_ job
    rw [hrun.host_eq]
    exact (heard_ofMoves authWait moves).numbered
  | pass _ _ hready _ hdue ih => exact ih.pass hready hdue

/-! ### Through time -/

theorem applicants_perform (host : Host) (now : Nat) (link : Link) (job : Job) :
    (host.perform now link job).host.applicants.Sublist host.applicants := by
  have hhearing := host.hearing (.perform now link job)
  generalize hscene : host.move (.perform now link job) = scene at hhearing
  have hperform : host.perform now link job = scene := hscene
  rw [hperform]
  cases hhearing with
  | aside hquiet => rw [hquiet.applicants]
  | waitsOn => exact .refl _
  | turnedAway => exact List.filter_sublist
  | letIn => exact List.filter_sublist

theorem settleWithin_quiet (turns : Nat) (s : Service) :
    (machine.settleWithin turns s).1.clock = s.clock ∧
      (machine.settleWithin turns s).1.host.applicants.Sublist s.host.applicants := by
  induction turns generalizing s with
  | zero => exact ⟨rfl, .refl _⟩
  | succ turns ih =>
    rw [Machine.settleWithin]
    cases hturn : machine.turn s with
    | none => exact ⟨rfl, .refl _⟩
    | some next =>
      obtain ⟨t, told⟩ := next
      obtain ⟨job, -, rfl, -⟩ := turn_eq_some hturn
      obtain ⟨hclock, happlicants⟩ := ih (s.after job)
      exact ⟨hclock, happlicants.trans (applicants_perform s.host s.clock s.link job)⟩

theorem earliest_of_due? {time : Nat} (hdue : machine.due? s = some time) :
    (∃ applicant ∈ s.host.applicants, applicant.deadline = time) ∧
      ∀ applicant ∈ s.host.applicants, time ≤ applicant.deadline := by
  obtain ⟨hmem, hleast⟩ := List.min?_eq_some_iff.mp hdue
  exact ⟨List.mem_map.mp hmem, fun applicant happlicant =>
    hleast _ (List.mem_map_of_mem happlicant)⟩

/-- The clock gets somewhere before anyone's time is over. -/
theorem Run.reach_reaches (h : Run authWait moves s) (hready : s.ready = []) {target : Nat}
    (hclock : s.clock ≤ target) (hlater : ∀ time, machine.due? s = some time → target < time) :
    Reaches authWait moves [] (machine.reach target s) ∧ (machine.reach target s).ready = [] ∧
      (machine.reach target s).clock = target := by
  have hbefore : ∀ applicant ∈ s.host.applicants, target < applicant.deadline := by
    intro applicant hmem
    cases hdue : machine.due? s with
    | none =>
      rw [List.map_eq_nil_iff.mp (List.min?_eq_none_iff.mp hdue)] at hmem
      exact nomatch hmem
    | some time =>
      exact Nat.lt_of_lt_of_le (hlater time hdue) ((earliest_of_due? hdue).2 applicant hmem)
  have hoverdue : s.host.overdue target = [] := by
    simpa [Host.overdue] using hbefore
  refine ⟨.refl (h.pass target hready hclock fun applicant hmem =>
    Nat.le_of_lt (hbefore applicant hmem)), ?_, rfl⟩
  show (s.host.overdue target).foldl enqueue s.ready = []
  rw [hoverdue, hready, List.foldl_nil]

/-- The clock stops as someone's time is over, and one less waits when the service has settled. -/
theorem Run.stop_reaches (h : Run authWait moves s) (hready : s.ready = []) {time : Nat}
    (hdue : machine.due? s = some time) :
    let stopped := machine.settle (machine.reach time s)
    Reaches authWait moves stopped.2 stopped.1 ∧ stopped.1.ready = [] ∧ stopped.1.clock = time ∧
      stopped.1.host.applicants.length < s.host.applicants.length := by
  obtain ⟨⟨first, hmem, hdeadline⟩, hleast⟩ := earliest_of_due? hdue
  have hnow : s.clock ≤ time := hdeadline ▸ h.attended.within first hmem
  obtain ⟨hreaches, hsettled⟩ := settle_reaches (h.pass time hready hnow hleast)
  obtain ⟨hclock, hsublist⟩ := settleWithin_quiet (machine.turns (machine.reach time s))
    (machine.reach time s)
  refine ⟨hreaches, hsettled, hclock, Nat.lt_of_not_le fun hmore => ?_⟩
  -- If all of them still waited, so would the one that has just had its last look.
  have hsame := hsublist.eq_of_length_le hmore
  obtain ⟨more, hrun, -⟩ := hreaches
  have hlate := (hrun.attended.settled hsettled (hsame ▸ hmem)).1
  have hthen : (machine.settle (machine.reach time s)).1.clock = first.deadline :=
    hclock.trans hdeadline.symm
  exact Nat.lt_irrefl _ (hthen ▸ hlate)

/-- However far the clock runs from a settled service, it gets there, and the service is settled
then. -/
theorem advance_reaches (h : Run authWait moves s) (hready : s.ready = []) {target : Nat}
    (hclock : s.clock ≤ target) :
    Reaches authWait moves (machine.advance target s).2 (machine.advance target s).1 ∧
      (machine.advance target s).1.ready = [] ∧ (machine.advance target s).1.clock = target := by
  refine Machine.advanceWithin_of_stops
    (P := fun s => (∃ moves, Run authWait moves s) ∧ s.ready = [] ∧ s.clock ≤ target)
    (R := fun s last => ∀ moves, Run authWait moves s → Reaches authWait moves last.2 last.1 ∧
      last.1.ready = [] ∧ last.1.clock = target)
    (·.host.applicants.length) ?_ ?_ ?_ ⟨⟨moves, h⟩, hready, hclock⟩ (Nat.le_refl _) moves h
  · intro s hnobody
    show (s.host.applicants.map (·.deadline)).min? = none
    rw [List.eq_nil_of_length_eq_zero hnobody]
    rfl
  · rintro s ⟨-, hready, hclock⟩ hlater moves h
    exact h.reach_reaches hready hclock hlater
  · rintro s time ⟨⟨moves, h⟩, hready, -⟩ hdue hwithin
    obtain ⟨hreaches, hsettled, hclock, hless⟩ := h.stop_reaches hready hdue
    obtain ⟨more, hrun, -⟩ := hreaches
    refine ⟨⟨⟨_, hrun⟩, hsettled, Nat.le_trans (Nat.le_of_eq hclock) hwithin⟩, hless,
      fun last hlast moves h => ?_⟩
    refine ⟨(h.stop_reaches hready hdue).1.trans fun hnext => (hlast _ hnext).1, ?_⟩
    exact (hlast _ hrun).2

end Service

/-! ### Last looks and missed tokens -/

/-- By this move an application looks at the tokens as its time is over, and none is for it. -/
def LastLook (authWait : Nat) (before : List Move) (move : Move) (id : Nat) : Prop :=
  ∃ start link endpoint presented, (starts before)[id]? = some start ∧
    (applied before)[id]? = some (endpoint, presented) ∧
    move = .perform (start + authWait) link (.consider id) ∧
    ∀ token ∈ (Chronicle.ofMoves authWait before).host.registry.tokens,
      ¬ admits presented endpoint token = true

/-- Why an application was not let in on a token that is for it. -/
inductive Missed (authWait : Nat) (moves : List Move) (id index : Nat) (entry : Entry) : Prop
  | claimed {other : Nat} {seat : Seat} (hother : other ≠ id) (hfate : entry.fate = .consumed other)
      (hadmitted : .admitted other entry.token seat ∈ (Chronicle.ofMoves authWait moves).notices)
  | withdrawn (hfate : entry.fate = .withdrawn entry.token.virtualIp)
      (hmove : .applyPresence ⟨entry.token.virtualIp, false⟩ ∈ moves)
  | discarded (hfate : entry.fate = .discarded) (hmove : .shutdown ∈ moves)
  | late (hlate : CameLate authWait moves id index)

theorem Entry.IsGone.missed {authWait : Nat} {moves : List Move} {id index : Nat} {entry : Entry}
    (h : entry.IsGone id) (hentry : entry ∈ (Chronicle.ofMoves authWait moves).ledger) :
    Missed authWait moves id index entry := by
  obtain ⟨haccounted, -⟩ := accounted_ofMoves authWait moves
  have hexplained := haccounted.dropped entry hentry
  rw [Entry.Explained] at hexplained
  rw [Entry.IsGone] at h
  cases hfate : entry.fate with
  | pending =>
    rw [hfate] at h
    exact h.elim
  | consumed other =>
    rw [hfate] at h
    obtain ⟨seat, hadmitted⟩ := haccounted.exists_admitted hentry hfate
    exact .claimed h hfate hadmitted
  | withdrawn ip =>
    rw [hfate] at hexplained
    obtain ⟨rfl, hmove⟩ := hexplained
    exact .withdrawn hfate hmove
  | discarded =>
    rw [hfate] at hexplained
    exact .discarded hfate hexplained

/-- Who is turned away had its last look just then. -/
theorem Service.Run.lastLook {authWait : Nat} {moves : List Move} {s : Service}
    (h : Service.Run authWait moves s) :
    ∀ before move after, moves = before ++ move :: after →
      ∀ id, .decided id (.error .noMatchingToken) ∈
          ((Chronicle.ofMoves authWait before).host.move move).notices →
        LastLook authWait before move id := by
  induction h with
  | start => simp
  | call _ _ hcall ih =>
    refine forall_split_concat.mpr ⟨ih, fun id hrefused => ?_⟩
    obtain ⟨now, link, rfl, -⟩ := Host.exists_applicant_of_turnedAway hrefused
    exact hcall.elim
  | fault _ _ ih => exact ih
  | @turn moves s hrun job _ ih =>
    refine forall_split_concat.mpr ⟨ih, fun id hrefused => ?_⟩
    obtain ⟨now, link, hmove, applicant, hmem, rfl, hover, hnone⟩ :=
      Host.exists_applicant_of_turnedAway hrefused
    obtain ⟨start, hstart, hdeadline⟩ := (heard_ofMoves authWait moves).deadlines applicant hmem
    obtain ⟨-, hwaiting⟩ := accounted_ofMoves authWait moves
    have hwithin := hrun.attended.within applicant (hrun.host_eq ▸ hmem)
    simp only [Move.perform.injEq] at hmove
    obtain ⟨rfl, rfl, rfl⟩ := hmove
    have hclock : s.clock = start + authWait := by omega
    refine ⟨start, s.link, _, _, hstart, hwaiting.applicants applicant hmem, ?_, hnone⟩
    rw [hclock]
  | pass _ _ _ _ _ ih => exact ih

/-- Any number of peers apply, and the host is run in any order. Each of them waits, or was let in,
or was turned away. When nothing is ready, whoever waits has time left and no pending token is for
it. Nobody is turned away but by a last look, just as its time is over. And a token that is for an
application lets it in, unless another one takes the token first, or the token is dropped, or it
comes after the last look. The service always settles, and gets as far through time as it is to. -/
theorem applicants_attended {authWait : Nat} {moves : List Move} {s : Service}
    (hrun : Service.Run authWait moves s) :
    let c := Chronicle.ofMoves authWait moves
    (∀ id < (applied moves).length, s.host.HasApplicant id ∨
      (∃ token seat, .admitted id token seat ∈ c.notices) ∨
        .decided id (.error .noMatchingToken) ∈ c.notices) ∧
    (s.ready = [] → ∀ applicant ∈ s.host.applicants, ∃ start,
      (starts moves)[applicant.id]? = some start ∧
        (applied moves)[applicant.id]? = some (applicant.endpoint, applicant.presented) ∧
        applicant.deadline = start + authWait ∧ s.clock < start + authWait ∧
        ∀ token ∈ s.host.registry.tokens,
          ¬ admits applicant.presented applicant.endpoint token = true) ∧
    (∀ before move after, moves = before ++ move :: after →
      ∀ id, .decided id (.error .noMatchingToken) ∈
          ((Chronicle.ofMoves authWait before).host.move move).notices →
        LastLook authWait before move id) ∧
    (s.ready = [] → ∀ index entry id endpoint presented, c.ledger[index]? = some entry →
      (applied moves)[id]? = some (endpoint, presented) →
        admits presented endpoint entry.token = true →
          (∃ token seat, .admitted id token seat ∈ c.notices) ∨
            Missed authWait moves id index entry) ∧
    (Service.Reaches authWait moves (Service.machine.settle s).2 (Service.machine.settle s).1 ∧
      (Service.machine.settle s).1.ready = []) ∧
    (s.ready = [] → ∀ target, s.clock ≤ target →
      Service.Reaches authWait moves (Service.machine.advance target s).2
          (Service.machine.advance target s).1 ∧
        (Service.machine.advance target s).1.ready = [] ∧
        (Service.machine.advance target s).1.clock = target) := by
  intro c
  have hhost : s.host = c.host := hrun.host_eq
  obtain ⟨haccounted, hwaiting⟩ := accounted_ofMoves authWait moves
  have hheard := heard_ofMoves authWait moves
  refine ⟨fun id hid => ?_, fun hready applicant hmem => ?_, hrun.lastLook, ?_,
    Service.settle_reaches hrun, fun hready target hclock =>
      Service.advance_reaches hrun hready hclock⟩
  · rw [hhost]
    exact hheard.answered id (hwaiting.applications ▸ hid)
  · obtain ⟨htime, hnone⟩ := hrun.attended.settled hready hmem
    obtain ⟨start, hstart, hdeadline⟩ := hheard.deadlines applicant (hhost ▸ hmem)
    exact ⟨start, hstart, hwaiting.applicants applicant (hhost ▸ hmem), hdeadline,
      hdeadline ▸ htime, hnone⟩
  · intro hready index entry id endpoint presented hentry happlied hadmits
    have hmem := List.mem_of_getElem? hentry
    rcases provided_ofMoves authWait moves hentry happlied hadmits with
      ⟨applicant, happlicant, rfl⟩ | hadmitted | hgone | hlate
    · -- It waits in a settled service, so the token is not pending.
      have happlicant' : applicant ∈ s.host.applicants := hhost ▸ happlicant
      obtain ⟨-, hnone⟩ := hrun.attended.settled hready happlicant'
      have hown := Option.some.inj ((hwaiting.applicants applicant happlicant).symm.trans happlied)
      obtain ⟨rfl, rfl⟩ := Prod.mk.inj hown
      rw [hhost] at hnone
      rcases haccounted.admitted_or_gone hmem hadmits hnone applicant.id with
        ⟨seat, hadmitted⟩ | hgone
      · exact .inl ⟨entry.token, seat, hadmitted⟩
      · exact .inr (hgone.missed hmem)
    · exact .inl hadmitted
    · exact .inr (hgone.missed hmem)
    · exact .inr (.late hlate)

/-- Two peers wait for one token, which comes just as their time is over. The one that looks first
takes it, and the other is turned away by its last look. -/
theorem applicants_attended_of_two :
    let token : ProxyToken := ⟨1, .zero, .zero, .v4⟩
    let endpoint (port : UInt16) : Endpoint := { ip := .v4 .zero, port }
    let offer : ProxyOffer := { ip := .zero, family := .v4, port := 0, token := .zero }
    let link : Link := Faults.link {}
    let before : List Move := [.apply 0 (endpoint 7) offer, .apply 0 (endpoint 8) offer,
      .perform 0 link (.consider 0), .perform 0 link (.consider 1), .addToken token,
      .perform 100 link (.consider 1)]
    let moves := before ++ [.perform 100 link (.consider 0)]
    ∃ s, Service.Run 100 moves s ∧ s.ready = [] ∧ s.clock = 100 ∧
      LastLook 100 before (.perform 100 link (.consider 0)) 0 ∧
      Missed 100 moves 0 0 ⟨token, .consumed 1⟩ := by
  intro token endpoint offer link before moves
  let waiting : Service :=
    { clock := 100
      host := { authWait := 100, applications := 2, applicants :=
        [⟨0, endpoint 7, .zero, 100⟩, ⟨1, endpoint 8, .zero, 100⟩] }
      ready := [.consider 0, .consider 1] }
  have hwaiting : Service.Run 100 (before.take 4) waiting := by
    have hstart : Service.Run 100 [] { host := { authWait := 100 } } := .start 0 {}
    have hfirst := hstart.call (.apply 0 (endpoint 7) offer) rfl
    have hsecond := hfirst.call (.apply 0 (endpoint 8) offer) rfl
    have hlook := hsecond.turn (.consider 0) (by decide)
    have hboth := hlook.turn (.consider 1) (by decide)
    exact hboth.pass 100 (by decide) (by decide) (by decide)
  have htoken := hwaiting.call (.addToken token) trivial
  have htaken := htoken.turn (.consider 1) (by decide)
  have hrun : Service.Run 100 moves _ := htaken.turn (.consider 0) (by decide)
  obtain ⟨-, -, hlast, htokens, -, -⟩ := applicants_attended hrun
  refine ⟨_, hrun, by decide, rfl, hlast before _ [] rfl 0 ?_, ?_⟩
  · exact List.mem_singleton_self _
  · have hentry : (Chronicle.ofMoves 100 moves).ledger[0]? = some ⟨token, .consumed 1⟩ := by decide
    refine (htokens (by decide) 0 _ 0 (endpoint 7) .zero hentry rfl (by decide)).resolve_left ?_
    rintro ⟨_, _, hadmitted⟩
    have hsole : admissions (Chronicle.ofMoves 100 moves).notices =
        [(1, token, ⟨0, endpoint 8, 1⟩)] := by decide
    have hmem := mem_admissions.mpr hadmitted
    rw [hsole] at hmem
    simp at hmem

end LocalPlay.Overlay
