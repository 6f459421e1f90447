import LocalPlay.Overlay.Guest
import LocalPlay.Proofs.Numbering
import LocalPlay.Proofs.Splits

/-!
# Visits

A guest is asked for things at any time: addresses are assigned to it, and any number of callers
wait for one, each for a time of its own. Callers that are ready have their turns in any order. Time
passes only while nobody is ready, and never past a deadline. These are the `Run`s, each with a log
of what was asked and what was told, and when.

`Waits` is what the log has to do with a caller that waits, and `Kept` what it has to do with the
whole visit. As long as there is no address, a caller that is not ready has looked and has time
left; with the first address all callers are ready, and no time passes until they are answered. So
the time of every answer is known from the log.
-/

namespace LocalPlay.Overlay

open Net Wire Timing

namespace Visit

inductive Entry where
  | asked (request : Request)
  | told (notice : Notice)

/-- What was asked and told, with the times. -/
abbrev Log := List (Nat × Entry)

def tell (time : Nat) (notices : List Notice) : Log :=
  notices.map fun notice => (time, .told notice)

/-- The addresses that were assigned. -/
def handled (log : Log) : List (Nat × OverlayConfig) :=
  log.filterMap fun
    | (time, .asked (.assign config)) => some (time, config)
    | _ => none

/-- The calls for an address, by their numbers: when each was made, and for how long it waits. -/
def called (log : Log) : List (Nat × Nat) :=
  log.filterMap fun
    | (time, .asked (.await timeout)) => some (time, timeout)
    | _ => none

/-- The addresses that were confirmed, and to whom, whether or not the link took the packet. -/
def confirmed (log : Log) : List (Target × OverlayConfig) :=
  log.filterMap fun
    | (_, .told (.posted target (.overlayConfig config) _)) => some (target, config)
    | _ => none

def latest (log : Log) : Option OverlayConfig :=
  (handled log).getLast?.map (·.2)

/-- A visit has come so far. -/
inductive Run (endpoint : Endpoint) : Log → Visit → Prop
  | start (clock : Nat) (faults : Faults) : Run endpoint [] { clock, faults, guest := { endpoint } }
  | request {log : Log} {v : Visit} (h : Run endpoint log v) (request : Request) :
    Run endpoint (log ++ (v.clock, .asked request) :: tell v.clock (v.request request).2.2)
      (v.request request).2.1
  /-- Those who are ready may have their turns in any order. -/
  | reorder {log : Log} {v : Visit} (h : Run endpoint log v) {ready : List Nat}
      (hready : ready.Perm v.ready) : Run endpoint log { v with ready }
  | turn {log : Log} {v t : Visit} {told : List Notice} (h : Run endpoint log v)
      (hturn : v.turn = some (t, told)) : Run endpoint (log ++ tell v.clock told) t
  /-- Nobody is ready, and nobody's time is over before the clock stops. -/
  | pass {log : Log} {v : Visit} (h : Run endpoint log v) (time : Nat) (hready : v.ready = [])
      (hclock : v.clock ≤ time) (hdue : ∀ waiter ∈ v.waiters, time ≤ waiter.deadline) :
    Run endpoint log (machine.reach time v)

/-! ### What is in a log -/

variable {log more : Log}

theorem handled_append : handled (log ++ more) = handled log ++ handled more :=
  List.filterMap_append

theorem called_append : called (log ++ more) = called log ++ called more :=
  List.filterMap_append

theorem confirmed_append : confirmed (log ++ more) = confirmed log ++ confirmed more :=
  List.filterMap_append

theorem latest_append (hmore : handled more = []) : latest (log ++ more) = latest log := by
  rw [latest, handled_append, hmore, List.append_nil, latest]

theorem latest_append_handled {time : Nat} {config : OverlayConfig}
    (hmore : handled more = [(time, config)]) : latest (log ++ more) = some config := by
  rw [latest, handled_append, hmore, List.getLast?_concat]
  rfl

theorem latest_eq_none_iff : latest log = none ↔ handled log = [] := by
  rw [latest, Option.map_eq_none_iff, List.getLast?_eq_none_iff]

/-- The call with this number has its answer. -/
def Answered (log : Log) (id : Nat) : Prop :=
  ∃ time config, (time, .told (.answered id config)) ∈ log

/-- How a call is answered after what was asked and told so far: with the latest address, as soon as
there was both an address and the call, and without one just as the time of the call is over. -/
def Answers (before : Log) (time id : Nat) (config : Option OverlayConfig) : Prop :=
  ¬ Answered before id ∧ config = latest before ∧
    ∃ start timeout, (called before)[id]? = some (start, timeout) ∧
      match (handled before).head? with
      | none => time = start + timeout
      | some (first, _) => time = max start first ∧ time ≤ start + timeout

theorem answered_append {id : Nat} :
    Answered (log ++ more) id ↔ Answered log id ∨ Answered more id := by
  simp only [Answered, List.mem_append, exists_or]

/-! ### What a turn comes to -/

/-- The first who is ready looks for the address. -/
inductive Turn (v : Visit) : Visit → List Notice → Prop
  | waits {id : Nat} {ready : List Nat} (hready : v.ready = id :: ready)
      (hwaits : ∀ waiter, v.waiters.find? (·.id == id) = some waiter →
        v.guest.config = none ∧ v.clock < waiter.deadline) : Turn v { v with ready } []
  | answered {waiter : Waiter} {ready : List Nat} (hready : v.ready = waiter.id :: ready)
      (hmem : waiter ∈ v.waiters) (hover : v.guest.config.isSome ∨ waiter.deadline ≤ v.clock) :
    Turn v { v with ready, waiters := v.waiters.filter (·.id ≠ waiter.id) }
      [.answered waiter.id v.guest.config]

theorem turn_cases {v t : Visit} {told : List Notice} (hturn : v.turn = some (t, told)) :
    v.Turn t told := by
  rw [turn] at hturn
  split at hturn
  · exact nomatch hturn
  · next id ready hready =>
    dsimp only at hturn
    split at hturn
    · next hfind =>
      obtain ⟨rfl, rfl⟩ := Prod.mk.inj (Option.some.inj hturn)
      exact .waits hready fun waiter hwaiter => nomatch hfind.symm.trans hwaiter
    · next waiter hfind =>
      have hid : waiter.id = id := key_of_find? hfind
      subst hid
      split at hturn
      · next hover =>
        obtain ⟨rfl, rfl⟩ := Prod.mk.inj (Option.some.inj hturn)
        exact .answered hready (List.mem_of_find?_eq_some hfind) hover
      · next hover =>
        obtain ⟨rfl, rfl⟩ := Prod.mk.inj (Option.some.inj hturn)
        refine .waits hready fun other hother => ?_
        obtain rfl := Option.some.inj (hfind.symm.trans hother)
        obtain ⟨hnone, htime⟩ := not_or.mp hover
        exact ⟨Option.not_isSome_iff_eq_none.mp hnone, Nat.lt_of_not_le htime⟩

theorem turn_eq_none {v : Visit} (hturn : v.turn = none) : v.ready = [] := by
  rw [turn] at hturn
  split at hturn
  · assumption
  · dsimp only at hturn
    split at hturn
    · exact nomatch hturn
    · split at hturn <;> exact nomatch hturn

/-! ### What a log tells of a visit -/

/-- A caller that waits made its call at some time, and has no answer. It is ready, or has looked in
vain and has time left. -/
structure Waits (log : Log) (v : Visit) (w : Waiter) : Prop where
  call : ∃ start timeout, (called log)[w.id]? = some (start, timeout) ∧
    w.deadline = start + timeout ∧ start ≤ v.clock ∧
      ∀ first config, (handled log).head? = some (first, config) → v.clock = max start first
  within : v.clock ≤ w.deadline
  looks : w.id ∈ v.ready ∨ v.guest.config = none ∧ v.clock < w.deadline
  unanswered : ¬ Answered log w.id

structure Kept (endpoint : Endpoint) (log : Log) (v : Visit) : Prop where
  host : v.guest.endpoint = endpoint
  config : v.guest.config = latest log
  confirmed : confirmed log = (handled log).map fun assigned => (.peer endpoint, assigned.2)
  calls : v.calls = (called log).length
  numbered : Numbered (v.waiters.map (·.id)) v.calls
  times : log.Pairwise fun earlier later => earlier.1 ≤ later.1
  past : ∀ entry ∈ log, entry.1 ≤ v.clock
  waits : ∀ w ∈ v.waiters, Waits log v w
  everyone : ∀ id < v.calls, Answered log id ∨ ∃ w ∈ v.waiters, w.id = id
  answers : ∀ before entry after, log = before ++ entry :: after → ∀ id config,
    entry.2 = .told (.answered id config) → Answers before entry.1 id config

variable {endpoint : Endpoint} {v t : Visit} {w : Waiter}

namespace Waits

theorem mono (h : Waits log v w) (hclock : t.clock = v.clock) (hguest : t.guest = v.guest)
    (hready : w.id ∈ v.ready → w.id ∈ t.ready ∨ v.guest.config = none ∧ v.clock < w.deadline) :
    Waits log t w := by
  refine ⟨?_, ?_, ?_, h.unanswered⟩
  · rw [hclock]
    exact h.call
  · rw [hclock]
    exact h.within
  · rw [hclock, hguest]
    rcases h.looks with hlooks | hlooks
    · exact hready hlooks
    · exact .inr hlooks

/-- Nothing is assigned, and no call is answered. -/
theorem append (h : Waits log v w) (hhandled : handled more = []) (hmore : ¬ Answered more w.id) :
    Waits (log ++ more) v w := by
  refine ⟨?_, h.within, h.looks, ?_⟩
  · obtain ⟨start, timeout, hcalled, hcall⟩ := h.call
    refine ⟨start, timeout, ?_, ?_⟩
    · rw [called_append, List.getElem?_append_left (List.getElem?_eq_some_iff.mp hcalled).1]
      exact hcalled
    · rw [handled_append, hhandled, List.append_nil]
      exact hcall
  · rw [answered_append, not_or]
    exact ⟨h.unanswered, hmore⟩

/-- An address is assigned, and the caller is woken. -/
theorem assigned (h : Waits log v w) {config : OverlayConfig}
    (hhandled : handled more = [(v.clock, config)]) (hcalled : called more = [])
    (hmore : ¬ Answered more w.id) (hclock : t.clock = v.clock) (hready : w.id ∈ t.ready) :
    Waits (log ++ more) t w := by
  obtain ⟨start, timeout, hcall, hdeadline, hstart, hfirst⟩ := h.call
  refine ⟨⟨start, timeout, ?_, hdeadline, hclock ▸ hstart, fun first other hhead => ?_⟩,
    hclock ▸ h.within, .inl hready, ?_⟩
  · rw [called_append, hcalled, List.append_nil]
    exact hcall
  · rw [handled_append, hhandled] at hhead
    rw [hclock]
    cases hbefore : handled log with
    | nil =>
      rw [hbefore] at hhead
      cases hhead
      exact (Nat.max_eq_right hstart).symm
    | cons earliest rest =>
      rw [hbefore] at hhead
      exact hfirst first other (by rw [hbefore]; exact hhead)
  · rw [answered_append, not_or]
    exact ⟨h.unanswered, hmore⟩

end Waits

namespace Kept

theorem answered_below (h : Kept endpoint log v) {id : Nat} (hanswered : Answered log id) :
    id < v.calls := by
  obtain ⟨time, config, hmem⟩ := hanswered
  obtain ⟨before, after, rfl⟩ := List.append_of_mem hmem
  obtain ⟨-, -, start, timeout, hcalled, -⟩ := h.answers before _ after rfl id config rfl
  have hlength := (List.getElem?_eq_some_iff.mp hcalled).1
  rw [h.calls, called_append, List.length_append]
  omega

theorem handled_eq_nil (h : Kept endpoint log v) (hconfig : v.guest.config = none) :
    handled log = [] :=
  latest_eq_none_iff.mp (h.config.symm.trans hconfig)

theorem first_le (h : Kept endpoint log v) {first : Nat} {config : OverlayConfig}
    (hfirst : (handled log).head? = some (first, config)) : first ≤ v.clock := by
  obtain ⟨entry, hmem, hentry⟩ := List.mem_filterMap.mp (List.mem_of_mem_head? hfirst)
  have hpast := h.past _ hmem
  split at hentry
  · cases hentry
    exact hpast
  · exact nomatch hentry

theorem start (clock : Nat) (faults : Faults) :
    Kept endpoint [] { clock, faults, guest := { endpoint } } where
  host := rfl
  config := rfl
  confirmed := rfl
  calls := rfl
  numbered := .nil 0
  times := .nil
  past := fun _ => nofun
  waits := fun _ => nofun
  everyone := fun _ => nofun
  answers := by simp

theorem in_time (h : Kept endpoint log v) (htime : ∀ entry ∈ more, entry.1 = v.clock) :
    ((log ++ more).Pairwise fun earlier later => earlier.1 ≤ later.1) ∧
      ∀ entry ∈ log ++ more, entry.1 ≤ v.clock := by
  refine ⟨List.pairwise_append.mpr ⟨h.times, ?_, fun earlier hearlier later hlater => ?_⟩,
    List.forall_mem_append.mpr ⟨h.past, fun entry hmem => Nat.le_of_eq (htime entry hmem)⟩⟩
  · refine List.pairwise_of_forall_mem_list fun earlier hearlier later hlater => ?_
    exact Nat.le_of_eq ((htime earlier hearlier).trans (htime later hlater).symm)
  · rw [htime later hlater]
    exact h.past earlier hearlier

theorem answers_append (h : Kept endpoint log v) (hmore : ∀ id, ¬ Answered more id) :
    ∀ before entry after, log ++ more = before ++ entry :: after → ∀ id config,
      entry.2 = .told (.answered id config) → Answers before entry.1 id config := by
  intro before entry after hsplit id config hentry
  rcases split_append hsplit with ⟨rest, hlog, -⟩ | ⟨between, -, hrest⟩
  · exact h.answers before entry rest hlog id config hentry
  · refine absurd ⟨entry.1, config, ?_⟩ (hmore id)
    rw [hrest, ← hentry]
    exact List.mem_append_right _ List.mem_cons_self

/-- Requests of other kinds concern neither addresses nor calls for them. -/
theorem aside (h : Kept endpoint log v) {faults : Faults}
    (htime : ∀ entry ∈ more, entry.1 = v.clock) (hmore : ∀ id, ¬ Answered more id)
    (hhandled : handled more = []) (hcalled : called more = [])
    (hconfirmed : Visit.confirmed more = []) :
    Kept endpoint (log ++ more) { v with faults } := by
  obtain ⟨htimes, hpast⟩ := h.in_time htime
  exact {
    host := h.host
    config := h.config.trans (latest_append hhandled).symm
    confirmed := by
      rw [confirmed_append, hconfirmed, handled_append, hhandled, List.append_nil, List.append_nil]
      exact h.confirmed
    calls := by
      rw [called_append, hcalled, List.append_nil]
      exact h.calls
    numbered := h.numbered
    times := htimes
    past := hpast
    waits := fun w hw => ((h.waits w hw).append hhandled (hmore w.id)).mono rfl rfl .inl
    everyone := fun id hid => (h.everyone id hid).imp_left fun hanswered =>
      answered_append.mpr (.inl hanswered)
    answers := h.answers_append hmore }

/-- An assignment wakes all who wait: whenever they look, there is an address. -/
theorem assign (h : Kept endpoint log v) (config : OverlayConfig) :
    Kept endpoint
      (log ++ (v.clock, .asked (.assign config)) :: tell v.clock (v.request (.assign config)).2.2)
      (v.request (.assign config)).2.1 := by
  generalize hentered : (v.clock, .asked (.assign config)) ::
    tell v.clock (v.request (.assign config)).2.2 = more
  have hhandled : handled more = [(v.clock, config)] := by rw [← hentered]; rfl
  have hcalled : called more = [] := by rw [← hentered]; rfl
  have hconfirmed : Visit.confirmed more = [(.peer endpoint, config)] := by
    rw [← hentered, ← h.host]
    rfl
  have hunanswered : ∀ id, ¬ Answered more id := by
    rintro id ⟨time, answer, hmem⟩
    simp [← hentered, tell, request, post] at hmem
  have htime : ∀ entry ∈ more, entry.1 = v.clock := by simp [← hentered, tell, request, post]
  obtain ⟨htimes, hpast⟩ := h.in_time htime
  exact {
    host := h.host
    config := (latest_append_handled hhandled).symm
    confirmed := by
      rw [confirmed_append, hconfirmed, handled_append, hhandled, h.confirmed, List.map_append]
      rfl
    calls := by
      rw [called_append, hcalled, List.append_nil]
      exact h.calls
    numbered := h.numbered
    times := htimes
    past := hpast
    waits := fun w hw => (h.waits w hw).assigned hhandled hcalled (hunanswered w.id) rfl
      (List.mem_map_of_mem hw)
    everyone := fun id hid => (h.everyone id hid).imp_left fun hanswered =>
      answered_append.mpr (.inl hanswered)
    answers := h.answers_append hunanswered }

theorem await (h : Kept endpoint log v) (timeout : Nat) :
    Kept endpoint
      (log ++ (v.clock, .asked (.await timeout)) :: tell v.clock (v.request (.await timeout)).2.2)
      (v.request (.await timeout)).2.1 := by
  generalize hentered : (v.clock, .asked (.await timeout)) ::
    tell v.clock (v.request (.await timeout)).2.2 = more
  have hhandled : handled more = [] := by rw [← hentered]; rfl
  have hcalled : called more = [(v.clock, timeout)] := by rw [← hentered]; rfl
  have hunanswered : ∀ id, ¬ Answered more id := by
    rintro id ⟨time, answer, hmem⟩
    simp [← hentered, tell, Visit.request] at hmem
  have htime : ∀ entry ∈ more, entry.1 = v.clock := by simp [← hentered, tell, Visit.request]
  obtain ⟨htimes, hpast⟩ := h.in_time htime
  have hcall : (called (log ++ more))[v.calls]? = some (v.clock, timeout) := by
    rw [called_append, hcalled, h.calls, List.getElem?_concat_length]
  have hnew : ¬ Answered log v.calls := fun hanswered =>
    Nat.lt_irrefl _ (h.answered_below hanswered)
  exact {
    host := h.host
    config := h.config.trans (latest_append hhandled).symm
    confirmed := by
      rw [confirmed_append, handled_append, hhandled, List.append_nil, ← h.confirmed, ← hentered]
      exact List.append_nil _
    calls := by
      rw [called_append, hcalled, List.length_append, ← h.calls]
      rfl
    numbered := by
      show Numbered ((v.waiters ++ [(⟨v.calls, v.clock + timeout⟩ : Waiter)]).map (·.id))
        (v.calls + 1)
      rw [List.map_append]
      exact h.numbered.issue
    times := htimes
    past := hpast
    waits := fun w hw => by
      rcases List.mem_append.mp hw with hw | hw
      · exact ((h.waits w hw).append hhandled (hunanswered w.id)).mono rfl rfl fun hready =>
          .inl (List.mem_append_left _ hready)
      · obtain rfl := List.mem_singleton.mp hw
        refine ⟨⟨v.clock, timeout, hcall, rfl, Nat.le_refl _, fun first config hhead => ?_⟩,
          Nat.le_add_right _ _, .inl (List.mem_append_right _ (List.mem_singleton_self _)), ?_⟩
        · rw [handled_append, hhandled, List.append_nil] at hhead
          exact (Nat.max_eq_left (h.first_le hhead)).symm
        · rw [answered_append, not_or]
          exact ⟨hnew, hunanswered _⟩
    everyone := fun id hid => by
      rcases Nat.lt_succ_iff_lt_or_eq.mp hid with hid | rfl
      · refine (h.everyone id hid).imp (fun hanswered => answered_append.mpr (.inl hanswered)) ?_
        rintro ⟨w, hw, hwaits⟩
        exact ⟨w, List.mem_append_left _ hw, hwaits⟩
      · exact .inr ⟨_, List.mem_append_right _ (List.mem_singleton_self _), rfl⟩
    answers := h.answers_append hunanswered }

theorem request (h : Kept endpoint log v) (request : Request) :
    Kept endpoint (log ++ (v.clock, .asked request) :: tell v.clock (v.request request).2.2)
      (v.request request).2.1 := by
  cases request with
  | authenticate offer =>
    refine h.aside ?_ ?_ rfl rfl rfl
    · simp [tell, Visit.request, post]
    · simp [Answered, tell, Visit.request, post]
  | assign config => exact h.assign config
  | send traffic =>
    refine h.aside ?_ ?_ rfl rfl ?_
    · simp [tell, Visit.request, post]
    · simp [Answered, tell, Visit.request, post]
    · cases traffic <;> rfl
  | await timeout => exact h.await timeout
  | setFault target error =>
    refine h.aside ?_ ?_ rfl rfl rfl
    · simp [tell, Visit.request]
    · simp [Answered, tell, Visit.request]

theorem reorder (h : Kept endpoint log v) {ready : List Nat} (hready : ready.Perm v.ready) :
    Kept endpoint log { v with ready } :=
  { h with
    waits := fun w hw =>
      (h.waits w hw).mono rfl rfl fun hlooks => .inl (hready.mem_iff.mpr hlooks) }

/-- A caller that waits is answered in its turn, and in time. -/
theorem answer (h : Kept endpoint log v) {waiter : Waiter} (hmem : waiter ∈ v.waiters)
    (hover : v.guest.config.isSome ∨ waiter.deadline ≤ v.clock) :
    Answers log v.clock waiter.id v.guest.config := by
  have hwaits := h.waits waiter hmem
  obtain ⟨start, timeout, hcalled, hdeadline, -, hfirst⟩ := hwaits.call
  have hwithin := hwaits.within
  refine ⟨hwaits.unanswered, h.config, start, timeout, hcalled, ?_⟩
  rw [hdeadline] at hover hwithin
  cases hhandled : (handled log).head? with
  | none =>
    have hnone : v.guest.config = none := by
      rw [h.config, latest_eq_none_iff]
      exact List.head?_eq_none_iff.mp hhandled
    rw [hnone] at hover
    exact Nat.le_antisymm hwithin (hover.resolve_left nofun)
  | some assigned => exact ⟨hfirst _ _ hhandled, hwithin⟩

theorem turn (h : Kept endpoint log v) {told : List Notice} (hturn : v.Turn t told) :
    Kept endpoint (log ++ tell v.clock told) t := by
  cases hturn with
  | @waits id ready hready hlooks =>
    rw [tell, List.map_nil, List.append_nil]
    refine { h with waits := fun w hw => (h.waits w hw).mono rfl rfl fun hw' => ?_ }
    by_cases hid : w.id = id
    · -- It has just looked.
      refine .inr (hlooks w ?_)
      rw [← hid]
      exact h.numbered.find?_eq hw
    · rw [hready] at hw'
      exact .inl ((List.mem_cons.mp hw').resolve_left hid)
  | @answered waiter ready hready hmem hover =>
    have hanswer := h.answer hmem hover
    generalize htold : tell v.clock [.answered waiter.id v.guest.config] = more
    have hhandled : handled more = [] := by rw [← htold]; rfl
    have hcalled : called more = [] := by rw [← htold]; rfl
    have hconfirmed : Visit.confirmed more = [] := by rw [← htold]; rfl
    have hsole {id : Nat} : Answered more id ↔ id = waiter.id := by simp [← htold, tell, Answered]
    have htime : ∀ entry ∈ more, entry.1 = v.clock := by simp [← htold, tell]
    obtain ⟨htimes, hpast⟩ := h.in_time htime
    exact {
      host := h.host
      config := h.config.trans (latest_append hhandled).symm
      confirmed := by
        rw [confirmed_append, hconfirmed, handled_append, hhandled, List.append_nil,
          List.append_nil]
        exact h.confirmed
      calls := by
        rw [called_append, hcalled, List.append_nil]
        exact h.calls
      numbered := h.numbered.sublist (List.filter_sublist.map _)
      times := htimes
      past := hpast
      waits := fun w hw => by
        obtain ⟨hold, hne⟩ := List.mem_filter.mp hw
        have hother : w.id ≠ waiter.id := of_decide_eq_true hne
        have hstill := (h.waits w hold).append hhandled (hsole.not.mpr hother)
        refine hstill.mono rfl rfl fun hlooks => ?_
        rw [hready] at hlooks
        exact .inl ((List.mem_cons.mp hlooks).resolve_left hother)
      everyone := fun id hid => by
        rw [answered_append, hsole]
        rcases h.everyone id hid with hanswered | ⟨w, hw, rfl⟩
        · exact .inl (.inl hanswered)
        · by_cases hid : w.id = waiter.id
          · exact .inl (.inr hid)
          · exact .inr ⟨w, List.mem_filter.mpr ⟨hw, decide_eq_true hid⟩, rfl⟩
      answers := by
        rw [← htold]
        refine forall_split_concat.mpr ⟨h.answers, fun id config hentry => ?_⟩
        cases hentry
        exact hanswer }

theorem pass (h : Kept endpoint log v) {time : Nat} (hready : v.ready = [])
    (hclock : v.clock ≤ time) (hdue : ∀ waiter ∈ v.waiters, time ≤ waiter.deadline) :
    Kept endpoint log (machine.reach time v) :=
  { h with
    past := fun entry hmem => Nat.le_trans (h.past entry hmem) hclock
    waits := fun w hw => by
      obtain ⟨start, timeout, hcalled, hdeadline, hstart, -⟩ := (h.waits w hw).call
      have hlooks := (h.waits w hw).looks
      rw [hready] at hlooks
      obtain ⟨hnone, -⟩ := hlooks.resolve_left List.not_mem_nil
      refine ⟨⟨start, timeout, hcalled, hdeadline, Nat.le_trans hstart hclock, ?_⟩, hdue w hw, ?_,
        (h.waits w hw).unanswered⟩
      · intro first config hhead
        rw [h.handled_eq_nil hnone] at hhead
        exact nomatch hhead
      · by_cases hover : w.deadline ≤ time
        · refine .inl (List.mem_append_right _ (List.mem_map_of_mem ?_))
          exact List.mem_filter.mpr ⟨hw, decide_eq_true hover⟩
        · exact .inr ⟨hnone, Nat.lt_of_not_le hover⟩ }

end Kept

theorem Run.kept (h : Run endpoint log v) : Kept endpoint log v := by
  induction h with
  | start clock faults => exact .start clock faults
  | request _ request ih => exact ih.request request
  | reorder _ hready ih => exact ih.reorder hready
  | turn _ hturn ih => exact ih.turn (turn_cases hturn)
  | pass _ _ hready hclock hdue ih => exact ih.pass hready hclock hdue

end Visit

end LocalPlay.Overlay
