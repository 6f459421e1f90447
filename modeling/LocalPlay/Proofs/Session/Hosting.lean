import LocalPlay.Proofs.Numbering
import LocalPlay.Proofs.Session.Course

/-!
# Hosted proxies and the calls they are for

A call that is to create a network hosts a proxy before anything else, and the proxy is hosted for
this call alone until the network is confirmed. So outside of networks a proxy is hosted only while
such a call waits. The call that ends without a network forgets the proxy, and leaving a network
does too.

While other calls go on nothing can happen to the call a proxy is for, since calls wait under
numbers of their own.
-/

namespace LocalPlay.Session

open Net Wire Overlay Timing

/-- A proxy is hosted in a network, or for a call that waits. -/
def HostsFor (s : Session) : Prop :=
  s.hosted.isSome = true → s.inNetwork = true ∨ ∃ w ∈ s.waiting, w.pause.hosts = true

/-! ### Pauses -/

namespace Pause

theorem hosts_plan (pause : Pause) : pause.plan.hosts = pause.hosts := by
  cases pause with
  | _ => rfl

theorem joins_of_hosts {pause : Pause} (hhosts : pause.hosts = true) : pause.joins = true := by
  cases pause with
  | handshake operation =>
    cases operation with
    | createPublic request advertised => rfl
    | createPrivate request advertised => rfl
    | _ => exact nomatch hhosts
  | confirmation => rfl
  | _ => exact nomatch hhosts

end Pause

theorem Operation.hosts_pause (operation : Operation) :
    operation.pause.hosts = operation.hosts := by
  cases operation with
  | _ => rfl

/-! ### Numbers of calls -/

variable {origin s t : Session} {m : Move} {told more : List Notice}

/-- A call goes on to another pause. -/
theorem numbered_replace {waiting : List Waiting} {calls : Nat}
    (h : Numbered (waiting.map (·.id)) calls) {w : Waiting} (hw : w ∈ waiting)
    (deadline : Option Nat) (pause : Pause) :
    Numbered ((waiting.filter (·.id ≠ w.id) ++ [⟨w.id, deadline, pause⟩] : List Waiting).map
      (·.id)) calls := by
  have hbelow : w.id < calls := h.below _ (List.mem_map_of_mem hw)
  rw [List.map_append, List.map_singleton]
  refine (h.sublist (List.filter_sublist.map _)).concat hbelow fun hmem => ?_
  obtain ⟨other, hother, hid⟩ := List.mem_map.mp hmem
  exact of_decide_eq_true (List.mem_filter.mp hother).2 hid

/-- Calls wait under numbers of their own. -/
theorem Step.numbered (h : Step origin m s t more)
    (horigin : Numbered (origin.waiting.map (·.id)) origin.calls)
    (hs : Numbered (s.waiting.map (·.id)) s.calls) : Numbered (t.waiting.map (·.id)) t.calls := by
  have hbegin {call : Nat} {deadline : Option Nat} {pause : Pause} (hbegun : Begun origin s call) :
      Numbered ((s.waiting ++ [⟨call, deadline, pause⟩] : List Waiting).map (·.id)) s.calls := by
    rw [hbegun.counted, hbegun.waiting, hbegun.number, List.map_append, List.map_singleton]
    exact horigin.issue
  have hfilter (p : Waiting → Bool) : Numbered ((s.waiting.filter p).map (·.id)) s.calls :=
    hs.sublist (List.filter_sublist.map _)
  cases h with
  | count => exact hs.mono (Nat.le_succ _)
  | inform f hcall hplan =>
    have hids : (s.waiting.map f).map (·.id) = s.waiting.map (·.id) := by
      rw [List.map_map]
      exact List.map_congr_left fun w _ => hcall w
    rw [← hids] at hs
    exact hs
  | openLink call operation deadline refusal hmove hbegun => exact hbegin hbegun
  | ask call operation deadline refusal hmove hbegun => exact hbegin hbegun
  | wait call deadline pause hmove hbegun => exact hbegin hbegun
  | goOn w operation deadline refusal hmove hwaiting hpause hended hcalls =>
    show Numbered ((s.waiting ++ [_] : List Waiting).map (·.id)) s.calls
    rw [hended, hcalls]
    exact numbered_replace horigin hwaiting _ _
  | giveUp w => exact hfilter _
  | waste w => exact hfilter _
  | confirm w => exact hfilter _
  | settle w => exact hfilter _
  | confirmGuest w outcome deadline guest arrived hmove hwaiting =>
    exact numbered_replace hs hwaiting _ _
  | _ => exact hs

theorem Steps.numbered (h : Steps origin m s t told)
    (horigin : Numbered (origin.waiting.map (·.id)) origin.calls)
    (hs : Numbered (s.waiting.map (·.id)) s.calls) : Numbered (t.waiting.map (·.id)) t.calls := by
  induction h with
  | refl => exact hs
  | tail _ hstep ih => exact hstep.numbered horigin ih

/-! ### The latch of confirmations -/

/-- A confirmation that is not taken yet is of the network the session is in. -/
theorem Step.inNetwork_of_raised (h : Step origin m s t more)
    (hs : s.latches.isRaised .joined = true → s.inNetwork = true) :
    t.latches.isRaised .joined = true → t.inNetwork = true := by
  cases h with
  | raise signal hsignal =>
    intro hraised
    rw [Latches.isRaised_raise, decide_eq_false (Ne.symm hsignal.2), Bool.false_or] at hraised
    exact hs hraised
  | greet =>
    intro hraised
    rw [Latches.isRaised_raise] at hraised
    exact hs hraised
  | lower signal =>
    intro hraised
    rw [Latches.isRaised_lower, Bool.and_eq_true] at hraised
    exact hs hraised.2
  | openLink =>
    intro hraised
    rw [Latches.isRaised_lower, Bool.and_eq_true] at hraised
    exact hs hraised.2
  | waste =>
    intro hraised
    rw [Latches.isRaised_lower, Bool.and_eq_true] at hraised
    exact hs hraised.2
  | confirm =>
    intro hraised
    rw [Latches.isRaised_lower, Bool.and_eq_true] at hraised
    exact hs hraised.2
  | confirmGuest =>
    intro hraised
    rw [Latches.isRaised_lower, Bool.and_eq_true] at hraised
    exact hs hraised.2
  | leave =>
    intro hraised
    rw [Latches.isRaised_lower] at hraised
    exact absurd hraised Bool.false_ne_true
  | join => exact fun _ => rfl
  | _ => exact hs

theorem Steps.inNetwork_of_raised (h : Steps origin m s t told)
    (hs : s.latches.isRaised .joined = true → s.inNetwork = true) :
    t.latches.isRaised .joined = true → t.inNetwork = true := by
  induction h with
  | refl => exact hs
  | tail _ hstep ih => exact hstep.inNetwork_of_raised ih

/-! ### Moves that neither host a proxy nor end the call it is for -/

/-- A proxy is hosted in a network, or for a call that waits and does not go on in this move. -/
def Undisturbed (m : Move) (s : Session) : Prop :=
  s.hosted.isSome = true → s.inNetwork = true ∨
    ∃ w ∈ s.waiting, w.pause.hosts = true ∧ m ≠ .turn (.resume w.id)

theorem Undisturbed.mono (h : Undisturbed m s) (hhosted : t.hosted = s.hosted)
    (hnetwork : t.inNetwork = s.inNetwork)
    (hwaiting : ∀ w ∈ s.waiting, m ≠ .turn (.resume w.id) → w ∈ t.waiting) : Undisturbed m t := by
  intro hsome
  rw [hhosted] at hsome
  rcases h hsome with hin | ⟨w, hw, hhosts, hmove⟩
  · exact .inl (hnetwork.trans hin)
  · exact .inr ⟨w, hwaiting w hw hmove, hhosts, hmove⟩

theorem Step.undisturbed (h : Step origin m s t more)
    (hmove : ∀ operation, m = .event (.call (.operate operation)) → operation.hosts = false)
    (hs : Undisturbed m s) : Undisturbed m t := by
  -- The call that goes on is another one.
  have hother {call : Nat} (hcall : m = .turn (.resume call)) :
      ∀ w ∈ s.waiting, m ≠ .turn (.resume w.id) → w ∈ s.waiting.filter (·.id ≠ call) := by
    intro w hw hne
    refine List.mem_filter.mpr ⟨hw, decide_eq_true fun hid => hne ?_⟩
    rw [hid]
    exact hcall
  cases h with
  | host hosted hkept =>
    intro hsome
    rcases hkept hsome with hsome | ⟨operation, hcall, hhosts⟩
    · exact hs hsome
    · exact nomatch (hmove operation hcall).symm.trans hhosts
  | inform f hcall hplan =>
    intro hsome
    rcases hs hsome with hin | ⟨w, hw, hhosts, hne⟩
    · exact .inl hin
    · refine .inr ⟨f w, List.mem_map_of_mem hw, ?_, by rwa [hcall]⟩
      rw [← Pause.hosts_plan, hplan, Pause.hosts_plan]
      exact hhosts
  | join => exact fun _ => .inl rfl
  | leave hnetwork hhosted =>
    intro hsome
    have hsome : s.hosted.isSome = true := hsome
    rw [hhosted] at hsome
    exact nomatch hsome
  | openLink => exact hs.mono rfl rfl fun _ hw _ => List.mem_append_left _ hw
  | ask => exact hs.mono rfl rfl fun _ hw _ => List.mem_append_left _ hw
  | goOn => exact hs.mono rfl rfl fun _ hw _ => List.mem_append_left _ hw
  | wait => exact hs.mono rfl rfl fun _ hw _ => List.mem_append_left _ hw
  | giveUp w hcall => exact hs.mono rfl rfl (hother hcall)
  | waste w hcall => exact hs.mono rfl rfl (hother hcall)
  | confirm w outcome hcall => exact hs.mono rfl rfl (hother hcall)
  | settle w guest arrived outcome hcall => exact hs.mono rfl rfl (hother hcall)
  | confirmGuest w outcome deadline guest arrived hcall =>
    exact hs.mono rfl rfl fun w hw hne => List.mem_append_left _ (hother hcall w hw hne)
  | _ => exact hs

theorem Steps.undisturbed (h : Steps origin m s t told)
    (hmove : ∀ operation, m = .event (.call (.operate operation)) → operation.hosts = false)
    (hs : Undisturbed m s) : Undisturbed m t := by
  induction h with
  | refl => exact hs
  | tail _ hstep ih => exact hstep.undisturbed hmove ih

/-! ### Calls that host a proxy -/

namespace Act

/-- A call that has asked waits for the answer. -/
theorem exists_waits_operate (a : Act) (call : Nat) (operation : Operation) :
    ∃ deadline, ⟨call, deadline, operation.pause⟩ ∈ (a.operate call operation).session.waiting := by
  have hasked (a : Act) : ∃ deadline,
      ⟨call, deadline, operation.pause⟩ ∈ (a.asked call operation).session.waiting := by
    obtain ⟨deadline, refusal, heq⟩ := a.asked_eq call operation
    rw [heq]
    exact ⟨deadline, List.mem_append_right _ (List.mem_singleton_self _)⟩
  rw [operate_eq]
  cases operation with
  | createPublic request advertised =>
    rw [session_updatePassphrase]
    exact hasked a
  | _ => exact hasked _

theorem hosted_disposeHost (a : Act) : a.disposeHost.session.hosted = none := by
  obtain ⟨ready, notices, hdispose⟩ := a.disposeHost_eq
  rw [hdispose]

theorem inNetwork_disposeHost (a : Act) :
    a.disposeHost.session.inNetwork = a.session.inNetwork := by
  obtain ⟨ready, notices, hdispose⟩ := a.disposeHost_eq
  rw [hdispose]

theorem hosted_giveUp (a : Act) (call : Nat) {operation : Operation}
    (hhosts : operation.hosts = true) : (a.giveUp call operation).session.hosted = none := by
  cases operation with
  | createPublic request advertised => exact a.hosted_disposeHost
  | createPrivate request advertised => exact a.hosted_disposeHost
  | _ => exact nomatch hhosts

theorem hostsFor_operate (a : Act) (call : Nat) {operation : Operation}
    (hhosts : operation.hosts = true) : HostsFor (a.operate call operation).session := by
  obtain ⟨deadline, hmem⟩ := a.exists_waits_operate call operation
  exact fun _ => .inr ⟨_, hmem, operation.hosts_pause.trans hhosts⟩

theorem hostsFor_of_none {a : Act} (hnone : a.session.hosted = none) : HostsFor a.session := by
  intro hsome
  rw [hnone] at hsome
  exact nomatch hsome

/-- A call that begins to host a proxy waits afterwards, or has forgotten it. -/
theorem hostsFor_beginOperation (a : Act) (call : Nat) {operation : Operation}
    (hhosts : operation.hosts = true) : HostsFor (a.beginOperation call operation).session := by
  rw [beginOperation]
  split
  · exact hostsFor_operate _ call hhosts
  · split
    · exact hostsFor_of_none (hosted_giveUp _ call hhosts)
    · obtain ⟨deadline, refusal, hopen⟩ := (a.prepare operation).openLink_eq call operation
      rw [hopen]
      exact fun _ => .inr ⟨_, List.mem_append_right _ (List.mem_singleton_self _), hhosts⟩

theorem inNetwork_awaitAddress (a : Act) (call : Nat) (outcome : Outcome) :
    (a.awaitAddress call outcome).session.inNetwork = a.session.inNetwork := by
  rw [awaitAddress]
  split
  · rfl
  · rfl

/-- A call that has hosted a proxy goes on. -/
theorem hostsFor_goOn (a : Act) (call : Nat) {pause : Pause} {index : Option Nat}
    (hhosts : pause.hosts = true)
    (hconfirmed : pause = .confirmation → index.isSome = true → a.session.inNetwork = true) :
    HostsFor (a.goOn call index pause).session := by
  cases pause with
  | handshake operation =>
    rw [goOn]
    split
    · exact hostsFor_operate _ call hhosts
    · exact hostsFor_of_none (hosted_giveUp _ call hhosts)
  | confirmation =>
    rw [goOn]
    split
    · rename_i hfired
      refine fun _ => .inl ?_
      rw [inNetwork_awaitAddress]
      split
      · exact hconfirmed rfl hfired
      · rw [inNetwork_disposeHost]
        exact hconfirmed rfl hfired
    · exact hostsFor_of_none (hosted_disposeHost _)
  | _ => exact absurd hhosts Bool.false_ne_true

theorem hostsFor_resume (a : Act) {w : Waiting} (hhosts : w.pause.hosts = true)
    (hfind : a.session.waiting.find? (·.id == w.id) = some w)
    (hraised : a.session.latches.isRaised .joined = true → a.session.inNetwork = true) :
    HostsFor (a.resume w.id).session := by
  have hwaits : HostsFor a.session := fun _ => .inr ⟨w, List.mem_of_find?_eq_some hfind, hhosts⟩
  rw [resume, hfind]
  dsimp only
  split
  · rename_i hpause
    rw [hpause] at hhosts
    exact absurd hhosts Bool.false_ne_true
  · rename_i hpause
    rw [hpause] at hhosts
    exact absurd hhosts Bool.false_ne_true
  · generalize hglance : a.session.latches.glance Signal.once w.pause.awaited _ = result
    obtain ⟨glance, next⟩ := result
    cases glance with
    | fired index =>
      refine hostsFor_goOn _ w.id hhosts fun hpause _ => ?_
      obtain ⟨name, hname, hname', -⟩ := Latches.glance_fired hglance
      rw [hpause] at hname
      obtain rfl := List.mem_singleton.mp (List.mem_of_getElem? hname)
      exact hraised hname'
    | timedOut =>
      exact hostsFor_goOn _ w.id hhosts fun _ hfired => absurd hfired Bool.false_ne_true
    | waiting => exact hwaits

end Act

/-! ### Stages -/

/-- What is certain of the calls that wait and of the proxy that is hosted. -/
structure Hosting (s : Session) : Prop where
  numbered : Numbered (s.waiting.map (·.id)) s.calls
  confirmed : s.latches.isRaised .joined = true → s.inNetwork = true
  hosted : s.HostsFor

theorem Undisturbed.hostsFor (h : Undisturbed m s) : s.HostsFor := fun hsome =>
  (h hsome).imp id fun ⟨w, hw, hhosts, _⟩ => ⟨w, hw, hhosts⟩

theorem Hosting.whole (h : s.Hosting) (m : Move) : (s.move m).session.HostsFor := by
  obtain ⟨told, -, hsteps⟩ := leads_move s m
  have hplain (hmove : ∀ operation, m = .event (.call (.operate operation)) →
      operation.hosts = false)
      (hother : ∀ w ∈ s.waiting, w.pause.hosts = true → m ≠ .turn (.resume w.id)) :
      (s.move m).session.HostsFor := by
    refine (hsteps.undisturbed hmove fun hsome => ?_).hostsFor
    exact (h.hosted hsome).imp id fun ⟨w, hw, hhosts⟩ => ⟨w, hw, hhosts, hother w hw hhosts⟩
  by_cases hcall : ∃ operation, m = .event (.call (.operate operation)) ∧ operation.hosts = true
  · obtain ⟨operation, rfl, hhosts⟩ := hcall
    exact Act.hostsFor_beginOperation _ s.calls hhosts
  · have hmove : ∀ operation, m = .event (.call (.operate operation)) →
        operation.hosts = false := fun operation hm =>
      Bool.eq_false_iff.mpr fun hhosts => hcall ⟨operation, hm, hhosts⟩
    by_cases hresume : ∃ w ∈ s.waiting, w.pause.hosts = true ∧ m = .turn (.resume w.id)
    · obtain ⟨w, hw, hhosts, rfl⟩ := hresume
      have hfind : s.waiting.find? (·.id == w.id) = some w := h.numbered.find?_eq hw
      rw [move]
      split
      · exact Act.hostsFor_resume _ hhosts hfind h.confirmed
      · exact h.hosted
    · exact hplain hmove fun w hw hhosts hm => hresume ⟨w, hw, hhosts, hm⟩

theorem Stage.hosting {a b : Act} (h : s.Stage m a b) (ha : a.session.Hosting) :
    b.session.Hosting := by
  obtain ⟨told, -, hsteps⟩ := h.leads
  refine ⟨hsteps.numbered ha.numbered ha.numbered, hsteps.inNetwork_of_raised ha.confirmed, ?_⟩
  cases h with
  | whole => exact ha.whole m
  | reorder streams => exact ha.hosted
  | packet packet hmove hphase =>
    refine (hsteps.undisturbed (fun operation hcall => ?_) fun hsome => ?_).hostsFor
    · exact nomatch hmove.symm.trans hcall
    · refine (ha.hosted hsome).imp id fun ⟨w, hw, hhosts⟩ => ⟨w, hw, hhosts, fun hturn => ?_⟩
      exact nomatch hmove.symm.trans hturn

end LocalPlay.Session
