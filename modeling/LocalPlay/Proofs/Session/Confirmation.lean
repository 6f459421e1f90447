import LocalPlay.Proofs.Session.Moment

/-!
# Whose confirmation a call goes on with

A call that asks for a network waits for a latch, and the relay's confirmation raises it. Which call
it was meant for the latch does not say. If networks are asked for one at a time, a confirmation
that comes while a call waits is taken by that call; one that comes when nobody waits stays for the
next.
-/

namespace LocalPlay.Session

open Net Wire Overlay Timing

/-- No call that is to end in a network begins while another goes on. -/
def OneAtATime (s : Session) (moves : List Move) : Prop :=
  ∀ early operation, early ++ [.event (.call (.operate operation))] <+: moves →
    operation.joins = true → ∀ w ∈ (s.after early).session.waiting, w.pause.joins = false

/-- A confirmation came when no call waited for one, and the network was not left since. -/
def Leftover (s : Session) (moves : List Move) (history : List Notice) : Prop :=
  ∃ early m before sender info rest after, early ++ [m] <+: moves ∧
    ((s.after early).session.move m).told =
      before ++ .handled sender (.connected info) :: rest ∧
    (∀ w ∈ (s.after early).session.waiting, .joined ∉ w.pause.awaited) ∧
    history = (s.after early).told ++ before ++ .handled sender (.connected info) :: after ∧
    ∀ reason, .changed (.left reason) ∉ after

/-- The call has sent its request, with this before it and this since. -/
def Requested (history : List Notice) (call : Nat) (before since : List Notice) : Prop :=
  ∃ packet refusal, history = before ++ .posted (some call) .relay packet refusal :: since ∧
    isRequest packet = true

/-- A confirmation was handled after the request of this call. -/
def ConfirmedSince (history : List Notice) (call : Nat) : Prop :=
  ∃ before since, Requested history call before since ∧
    ∃ sender info, .handled sender (.connected info) ∈ since

/-- A confirmation was left over when this call sent its request. -/
def RequestedOnLeftover (s : Session) (moves : List Move) (history : List Notice) (call : Nat) :
    Prop :=
  ∃ before since, Requested history call before since ∧ s.Leftover moves before

/-- There is a confirmation with which the call can have gone on. -/
def Credited (s : Session) (moves : List Move) (history : List Notice) (call : Nat) : Prop :=
  ConfirmedSince history call ∨ s.RequestedOnLeftover moves history call

/-! ### Who waits -/

theorem Pause.awaited_plan (pause : Pause) : pause.plan.awaited = pause.awaited := by
  cases pause with
  | _ => rfl

theorem Pause.joins_plan (pause : Pause) : pause.plan.joins = pause.joins := by
  cases pause with
  | _ => rfl

theorem Pause.joins_of_awaited {pause : Pause} (hawaited : .joined ∈ pause.awaited) :
    pause.joins = true := by
  cases pause with
  | confirmation => rfl
  | joinReply => rfl
  | _ => simp [Pause.awaited] at hawaited

theorem Pause.awaited_of_confirmed? {pause : Pause} {outcome : Outcome}
    (hconfirmed : pause.confirmed? = some outcome) : .joined ∈ pause.awaited :=
  joined_mem_awaited_iff.mpr (Option.isSome_of_eq_some hconfirmed)

theorem Operation.joins_pause (operation : Operation) :
    operation.pause.joins = operation.joins := by
  cases operation with
  | _ => rfl

/-- Calls wait under numbers of their own, and at most one of them is to end in a network. -/
structure Orderly (waiting : List Waiting) (calls : Nat) : Prop where
  below : ∀ w ∈ waiting, w.id < calls
  distinct : ∀ w ∈ waiting, ∀ w' ∈ waiting, w.id = w'.id → w = w'
  alone : ∀ w ∈ waiting, ∀ w' ∈ waiting, w.pause.joins = true → w'.pause.joins = true → w = w'

namespace Orderly

variable {waiting : List Waiting} {calls : Nat}

theorem mono (h : Orderly waiting calls) {more : Nat} (hmore : calls ≤ more) :
    Orderly waiting more :=
  ⟨fun w hw => Nat.lt_of_lt_of_le (h.below w hw) hmore, h.distinct, h.alone⟩

theorem filter (h : Orderly waiting calls) (p : Waiting → Bool) :
    Orderly (waiting.filter p) calls where
  below w hw := h.below w (List.mem_filter.mp hw).1
  distinct w hw w' hw' := h.distinct w (List.mem_filter.mp hw).1 w' (List.mem_filter.mp hw').1
  alone w hw w' hw' := h.alone w (List.mem_filter.mp hw).1 w' (List.mem_filter.mp hw').1

theorem map (h : Orderly waiting calls) {f : Waiting → Waiting} (hcall : ∀ w, (f w).id = w.id)
    (hplan : ∀ w, (f w).pause.plan = w.pause.plan) : Orderly (waiting.map f) calls := by
  have hjoins (w : Waiting) : (f w).pause.joins = w.pause.joins := by
    rw [← Pause.joins_plan, hplan, Pause.joins_plan]
  refine ⟨?_, ?_, ?_⟩
  · intro _ hmem
    obtain ⟨w, hw, rfl⟩ := List.mem_map.mp hmem
    rw [hcall]
    exact h.below w hw
  · intro _ hmem _ hmem' hid
    obtain ⟨w, hw, rfl⟩ := List.mem_map.mp hmem
    obtain ⟨w', hw', rfl⟩ := List.mem_map.mp hmem'
    rw [hcall, hcall] at hid
    rw [h.distinct w hw w' hw' hid]
  · intro _ hmem _ hmem' hjoining hjoining'
    obtain ⟨w, hw, rfl⟩ := List.mem_map.mp hmem
    obtain ⟨w', hw', rfl⟩ := List.mem_map.mp hmem'
    rw [hjoins] at hjoining hjoining'
    rw [h.alone w hw w' hw' hjoining hjoining']

theorem concat (h : Orderly waiting calls) {w : Waiting} (hbelow : w.id < calls)
    (hnew : ∀ other ∈ waiting, other.id ≠ w.id)
    (halone : w.pause.joins = true → ∀ other ∈ waiting, other.pause.joins = false) :
    Orderly (waiting ++ [w]) calls := by
  refine ⟨?_, ?_, ?_⟩
  · intro other hother
    rcases List.mem_append.mp hother with hother | hother
    · exact h.below other hother
    · rw [List.mem_singleton.mp hother]
      exact hbelow
  · intro first hfirst second hsecond hid
    rcases List.mem_append.mp hfirst with hfirst | hfirst
    · rcases List.mem_append.mp hsecond with hsecond | hsecond
      · exact h.distinct first hfirst second hsecond hid
      · rw [List.mem_singleton.mp hsecond] at hid
        exact absurd hid (hnew first hfirst)
    · rcases List.mem_append.mp hsecond with hsecond | hsecond
      · rw [List.mem_singleton.mp hfirst] at hid
        exact absurd hid.symm (hnew second hsecond)
      · rw [List.mem_singleton.mp hfirst, List.mem_singleton.mp hsecond]
  · intro first hfirst second hsecond hjoins hjoins'
    rcases List.mem_append.mp hfirst with hfirst | hfirst
    · rcases List.mem_append.mp hsecond with hsecond | hsecond
      · exact h.alone first hfirst second hsecond hjoins hjoins'
      · rw [List.mem_singleton.mp hsecond] at hjoins'
        exact nomatch (halone hjoins' first hfirst).symm.trans hjoins
    · rcases List.mem_append.mp hsecond with hsecond | hsecond
      · rw [List.mem_singleton.mp hfirst] at hjoins
        exact nomatch (halone hjoins second hsecond).symm.trans hjoins'
      · rw [List.mem_singleton.mp hfirst, List.mem_singleton.mp hsecond]

/-- A call goes on to another pause. -/
theorem replace (h : Orderly waiting calls) {w : Waiting} (hw : w ∈ waiting) {deadline : Option Nat}
    {pause : Pause} (hjoins : pause.joins = true → w.pause.joins = true) :
    Orderly (waiting.filter (·.id ≠ w.id) ++ [⟨w.id, deadline, pause⟩]) calls := by
  refine (h.filter _).concat (h.below w hw) (fun other hother => ?_) fun hpause other hother => ?_
  · exact of_decide_eq_true (List.mem_filter.mp hother).2
  · obtain ⟨hother, hid⟩ := List.mem_filter.mp hother
    cases hothers : other.pause.joins with
    | false => rfl
    | true =>
      rw [h.alone other hother w hw hothers (hjoins hpause)] at hid
      exact absurd rfl (of_decide_eq_true hid)

end Orderly

section Run

variable {s : Session} {moves : List Move}

theorem invariant_orderly {settings : Settings} {interfaces : Interfaces}
    {localAddress : Except IoError Endpoint}
    (hcreate : create settings interfaces localAddress = .ok s) (hturns : s.OneAtATime moves) :
    Invariant s moves fun _ t => Orderly t.waiting t.calls := by
  refine ⟨?_, ?_⟩
  · obtain ⟨relay, rfl⟩ := create_eq hcreate
    exact ⟨fun _ => nofun, fun _ => nofun, fun _ => nofun⟩
  · intro early m told more rest t u hmoment horigin h hstep
    -- A call that begins has a new number, and asks for a network only if no other does.
    have hbegin {call : Nat} {deadline : Option Nat} {pause : Pause}
        (hbegun : Begun (s.after early).session t call)
        (halone : pause.joins = true → ∃ operation,
          m = .event (.call (.operate operation)) ∧ operation.joins = true) :
        Orderly (t.waiting ++ [⟨call, deadline, pause⟩]) t.calls := by
      rw [hbegun.counted, hbegun.waiting, hbegun.number]
      refine (horigin.mono (Nat.le_succ _)).concat (Nat.lt_succ_self _) ?_ ?_
      · exact fun other hother => Nat.ne_of_lt (horigin.below other hother)
      · intro hjoins
        obtain ⟨operation, rfl, hoperation⟩ := halone hjoins
        exact hturns early operation hmoment.isPrefix hoperation
    cases hstep with
    | count hmove hcalls => exact h.mono (Nat.le_succ _)
    | inform f hcall hplan => exact h.map hcall hplan
    | openLink call operation deadline refusal hmove hbegun hphase =>
      exact hbegin hbegun fun hjoins => ⟨operation, hmove, hjoins⟩
    | ask call operation deadline refusal hmove hbegun =>
      exact hbegin hbegun fun hjoins => ⟨operation, hmove, operation.joins_pause ▸ hjoins⟩
    | wait call deadline pause hmove hbegun hpause =>
      exact hbegin hbegun fun hjoins => nomatch hpause.symm.trans hjoins
    | goOn w operation deadline refusal hmove hwaiting hpause hended hcalls =>
      show Orderly (t.waiting ++ _) t.calls
      rw [hended, hcalls]
      refine horigin.replace hwaiting fun hjoins => ?_
      rw [hpause]
      exact operation.joins_pause.symm.trans hjoins
    | giveUp w => exact h.filter _
    | waste w => exact h.filter _
    | confirm w => exact h.filter _
    | settle w => exact h.filter _
    | confirmGuest w outcome deadline guest arrived hmove hwaiting hpause =>
      exact h.replace hwaiting fun _ =>
        Pause.joins_of_awaited (Pause.awaited_of_confirmed? hpause)
    | _ => exact h

/-! ### What calls can go on with -/

variable {history more : List Notice} {call : Nat}

theorem Requested.append {before since : List Notice} (h : Requested history call before since)
    (more : List Notice) : Requested (history ++ more) call before (since ++ more) := by
  obtain ⟨packet, refusal, rfl, hpacket⟩ := h
  exact ⟨packet, refusal, by rw [List.append_assoc, List.cons_append], hpacket⟩

theorem Credited.append (h : s.Credited moves history call) (more : List Notice) :
    s.Credited moves (history ++ more) call := by
  rcases h with ⟨before, since, hrequested, sender, info, hmem⟩ | ⟨before, since, hrequested, hleft⟩
  · exact .inl ⟨before, _, hrequested.append more, sender, info, List.mem_append_left _ hmem⟩
  · exact .inr ⟨before, _, hrequested.append more, hleft⟩

theorem Leftover.append (h : s.Leftover moves history)
    (hmore : ∀ reason, .changed (.left reason) ∉ more) : s.Leftover moves (history ++ more) := by
  obtain ⟨early, m, before, sender, info, rest, after, hmoves, htold, hnobody, rfl, hafter⟩ := h
  refine ⟨early, m, before, sender, info, rest, after ++ more, hmoves, htold, hnobody, ?_, ?_⟩
  · rw [List.append_assoc, List.cons_append]
  · intro reason hmem
    rcases List.mem_append.mp hmem with hmem | hmem
    · exact hafter reason hmem
    · exact hmore reason hmem

/-- What is owed to a call that waits: a request, and a confirmation as soon as the latch for it is
raised. -/
structure Due (s : Session) (moves : List Move) (history : List Notice) (raised : Bool)
    (w : Waiting) : Prop where
  requested : .joined ∈ w.pause.awaited → ∃ before since, Requested history w.id before since
  credited : .joined ∈ w.pause.awaited → raised = true → s.Credited moves history w.id
  settled : ∀ guest arrived outcome, w.pause = .address guest arrived outcome →
    s.Credited moves history w.id

theorem Due.append {raised raised' : Bool} {w w' : Waiting} (h : s.Due moves history raised w)
    (more : List Notice) (hraised : raised' = true → raised = true) (hcall : w'.id = w.id)
    (hplan : w'.pause.plan = w.pause.plan) : s.Due moves (history ++ more) raised' w' := by
  have hawaited : w'.pause.awaited = w.pause.awaited := by
    rw [← Pause.awaited_plan, hplan, Pause.awaited_plan]
  refine ⟨fun hmem => ?_, fun hmem hup => ?_, fun guest arrived outcome hpause => ?_⟩
  · obtain ⟨before, since, hrequested⟩ := h.requested (hawaited ▸ hmem)
    exact ⟨before, _, hcall ▸ hrequested.append more⟩
  · exact hcall ▸ (h.credited (hawaited ▸ hmem) (hraised hup)).append more
  · obtain ⟨arrived', hpause'⟩ : ∃ arrived', w.pause = .address guest arrived' outcome := by
      rw [hpause, Pause.plan] at hplan
      cases hw : w.pause with
      | address guest' arrived' outcome' =>
        rw [hw] at hplan
        obtain ⟨rfl, -, rfl⟩ := Pause.address.inj hplan
        exact ⟨arrived', rfl⟩
      | _ =>
        rw [hw] at hplan
        exact nomatch hplan
    exact hcall ▸ (h.settled guest arrived' outcome hpause').append more

structure Credits (s : Session) (moves : List Move) (history : List Notice) (t : Session) :
    Prop where
  leftover : t.latches.isRaised .joined = true →
    (∃ w ∈ t.waiting, .joined ∈ w.pause.awaited) ∨ s.Leftover moves history
  due : ∀ w ∈ t.waiting, s.Due moves history (t.latches.isRaised .joined) w

namespace Credits

variable {t u : Session}

/-- Calls that wait go on waiting, some end, and some may be new. -/
theorem keep (h : s.Credits moves history t)
    (hraised : u.latches.isRaised .joined = true → t.latches.isRaised .joined = true ∧
      (∀ reason, .changed (.left reason) ∉ more) ∧
      ((∃ w ∈ t.waiting, .joined ∈ w.pause.awaited) → ∃ w ∈ u.waiting, .joined ∈ w.pause.awaited))
    (hwaiting : ∀ w' ∈ u.waiting,
      (∃ w ∈ t.waiting, w'.id = w.id ∧ w'.pause.plan = w.pause.plan) ∨
        s.Due moves (history ++ more) (u.latches.isRaised .joined) w') :
    s.Credits moves (history ++ more) u := by
  refine ⟨fun hup => ?_, fun w' hw' => ?_⟩
  · obtain ⟨hup, hmore, hstill⟩ := hraised hup
    rcases h.leftover hup with hsome | hleft
    · exact .inl (hstill hsome)
    · exact .inr (hleft.append hmore)
  · rcases hwaiting w' hw' with ⟨w, hw, hcall, hplan⟩ | hdue
    · exact (h.due w hw).append more (fun hup => (hraised hup).1) hcall hplan
    · exact hdue

theorem same (h : s.Credits moves history t) (hwaiting : u.waiting = t.waiting)
    (hlatch : u.latches.isRaised .joined = t.latches.isRaised .joined)
    (hmore : ∀ reason, .changed (.left reason) ∉ more) : s.Credits moves (history ++ more) u := by
  refine h.keep (fun hup => ⟨hlatch ▸ hup, hmore, ?_⟩) fun w hw => .inl ⟨w, hwaiting ▸ hw, rfl, rfl⟩
  rw [hwaiting]
  exact id

/-- One more call waits. -/
theorem concat (h : s.Credits moves history t) {w : Waiting}
    (hwaiting : u.waiting = t.waiting ++ [w])
    (hlatch : u.latches.isRaised .joined = t.latches.isRaised .joined)
    (hmore : ∀ reason, .changed (.left reason) ∉ more)
    (hdue : s.Due moves (history ++ more) (t.latches.isRaised .joined) w) :
    s.Credits moves (history ++ more) u := by
  refine h.keep (fun hup => ⟨hlatch ▸ hup, hmore, ?_⟩) ?_
  · rintro ⟨w', hw', hawaited⟩
    exact ⟨w', hwaiting ▸ List.mem_append_left _ hw', hawaited⟩
  · rw [hwaiting, hlatch]
    intro w' hw'
    rcases List.mem_append.mp hw' with hw' | hw'
    · exact .inl ⟨w', hw', rfl, rfl⟩
    · exact .inr (List.mem_singleton.mp hw' ▸ hdue)

/-- A call waits no longer. Either it did not wait for a confirmation, or there is none. -/
theorem drop (h : s.Credits moves history t) {calls : Nat} (horderly : Orderly t.waiting calls)
    {w : Waiting} (hw : w ∈ t.waiting) (hwaiting : u.waiting = t.waiting.filter (·.id ≠ w.id))
    (hraised : u.latches.isRaised .joined = true →
      t.latches.isRaised .joined = true ∧ .joined ∉ w.pause.awaited)
    (hmore : ∀ reason, .changed (.left reason) ∉ more) : s.Credits moves (history ++ more) u := by
  refine h.keep (fun hup => ⟨(hraised hup).1, hmore, ?_⟩) ?_
  · rintro ⟨w', hw', hawaited⟩
    refine ⟨w', ?_, hawaited⟩
    rw [hwaiting]
    refine List.mem_filter.mpr ⟨hw', decide_eq_true fun hid => ?_⟩
    exact (hraised hup).2 (horderly.distinct w' hw' w hw hid ▸ hawaited)
  · rw [hwaiting]
    exact fun w' hw' => .inl ⟨w', (List.mem_filter.mp hw').1, rfl, rfl⟩

end Credits

theorem Due.ofOther {raised : Bool} {w : Waiting} (hawaited : .joined ∉ w.pause.awaited)
    (haddress : ∀ guest arrived outcome, w.pause ≠ .address guest arrived outcome) :
    s.Due moves history raised w :=
  ⟨fun hmem => absurd hmem hawaited, fun hmem => absurd hmem hawaited,
    fun guest arrived outcome hpause => absurd hpause (haddress guest arrived outcome)⟩

/-- A call sends its request and waits. -/
theorem Due.ofRequest {raised : Bool} {operation : Operation}
    {advertise : HostProfile → HostProfile} {refusal : Option SendError} {deadline : Option Nat}
    (hleft : operation.joins = true → raised = true → s.Leftover moves history) :
    s.Due moves
      (history ++ [.posted (some call) .relay (operation.request advertise) refusal]) raised
      ⟨call, deadline, operation.pause⟩ := by
  have hrequested : Requested
      (history ++ [.posted (some call) .relay (operation.request advertise) refusal]) call
      history [] := ⟨_, refusal, rfl, operation.isRequest_request advertise⟩
  refine ⟨fun _ => ⟨history, [], hrequested⟩,
    fun hmem hup => .inr ⟨history, [], hrequested, ?_⟩, ?_⟩
  · exact hleft (operation.joins_pause.symm.trans (Pause.joins_of_awaited hmem)) hup
  · cases operation with
    | _ => exact fun _ _ _ => nofun

/-- While a datagram is handled, calls that wait do so for the same. -/
theorem Steps.waits_of_datagram {origin t u : Session} {sender : Endpoint} {bytes : Bytes}
    {told : List Notice} (h : Steps origin (.event (.datagram sender bytes)) t u told) {w : Waiting}
    (hw : w ∈ t.waiting) : ∃ w' ∈ u.waiting, w'.pause.awaited = w.pause.awaited := by
  induction h with
  | refl => exact ⟨w, hw, rfl⟩
  | tail _ hstep ih =>
    obtain ⟨w', hw', hawaited⟩ := ih
    cases hstep with
    | inform f hcall hplan =>
      refine ⟨f w', List.mem_map_of_mem hw', ?_⟩
      rw [← Pause.awaited_plan, hplan, Pause.awaited_plan, hawaited]
    | openLink call operation deadline refusal hmove => exact nomatch hmove
    | ask call operation deadline refusal hmove => exact nomatch hmove
    | goOn w operation deadline refusal hmove => exact nomatch hmove
    | wait call deadline pause hmove =>
      obtain ⟨_, hmove⟩ := hmove
      exact nomatch hmove
    | giveUp w hmove => exact nomatch hmove
    | waste w hmove => exact nomatch hmove
    | confirm w outcome hmove => exact nomatch hmove
    | confirmGuest w outcome deadline guest arrived hmove => exact nomatch hmove
    | settle w guest arrived outcome hmove => exact nomatch hmove
    | _ => exact ⟨w', hw', hawaited⟩

theorem Credits.join {early : List Move} {m : Move} {told rest : List Notice} {t : Session}
    {sender : Endpoint} {info : NetworkInfo}
    (hmoment : Moment s moves early m told
      ([.handled sender (.connected info), .changed (.arrived info)] ++ rest) t)
    (hmove : ∃ bytes, m = .event (.datagram sender bytes))
    (h : s.Credits moves ((s.after early).told ++ told) t) :
    s.Credits moves
      ((s.after early).told ++ told ++
        [.handled sender (.connected info), .changed (.arrived info)])
      { t with inNetwork := true, leaveReason := .none, latches := t.latches.raise .joined } := by
  refine ⟨fun _ => ?_, fun w hw => ?_⟩
  · by_cases hsome : ∃ w ∈ t.waiting, .joined ∈ w.pause.awaited
    · exact .inl hsome
    · refine .inr ⟨early, m, told, sender, info, _, [.changed (.arrived info)], hmoment.isPrefix,
        hmoment.whole, ?_, rfl, ?_⟩
      · obtain ⟨bytes, rfl⟩ := hmove
        intro w hw hawaited
        obtain ⟨w', hw', hsame⟩ := hmoment.steps.waits_of_datagram hw
        exact hsome ⟨w', hw', hsame ▸ hawaited⟩
      · simp [NetworkChange.arrived, NetworkChange.left]
  · have hdue : s.Due moves ((s.after early).told ++ told ++
        [.handled sender (.connected info), .changed (.arrived info)]) false w :=
      (h.due w hw).append _ nofun rfl rfl
    refine ⟨hdue.requested, fun hmem _ => ?_, hdue.settled⟩
    obtain ⟨before, since, hrequested⟩ := (h.due w hw).requested hmem
    exact .inl ⟨before, _, hrequested.append _, sender, info,
      List.mem_append_right _ List.mem_cons_self⟩

theorem invariant_credits {settings : Settings} {interfaces : Interfaces}
    {localAddress : Except IoError Endpoint}
    (hcreate : create settings interfaces localAddress = .ok s) (hturns : s.OneAtATime moves) :
    Invariant s moves (s.Credits moves) := by
  have horderly := invariant_orderly hcreate hturns
  refine ⟨?_, ?_⟩
  · obtain ⟨relay, rfl⟩ := create_eq hcreate
    exact ⟨fun hup => absurd hup Bool.false_ne_true, by simp⟩
  · intro early m told more rest t u hmoment _ h hstep
    have ht := horderly.moment hmoment
    have hearly := horderly.after ((List.prefix_append _ _).trans hmoment.isPrefix)
    cases hstep with
    | join sender info hmove => exact h.join hmoment hmove
    | say notice hnotice =>
      refine h.same rfl rfl fun reason hmem => ?_
      rw [← List.mem_singleton.mp hmem] at hnotice
      exact absurd hnotice Bool.false_ne_true
    | raise signal hsignal => exact h.same rfl (by simp [hsignal.2.symm]) (by simp)
    | lower signal hsignal => exact h.same rfl (by simp [hsignal.symm]) (by simp)
    | inform f hcall hplan =>
      refine h.keep (fun hup => ⟨hup, by simp, ?_⟩) fun w' hw' => ?_
      · rintro ⟨w, hw, hawaited⟩
        refine ⟨f w, List.mem_map_of_mem hw, ?_⟩
        rwa [← Pause.awaited_plan, hplan, Pause.awaited_plan]
      · obtain ⟨w, hw, rfl⟩ := List.mem_map.mp hw'
        exact .inl ⟨w, hw, hcall w, hplan w⟩
    | openLink call operation deadline refusal hmove hbegun hphase =>
      refine h.concat rfl (by simp) (by simp) (Due.ofOther ?_ (by simp))
      simp [Pause.awaited]
    | ask call operation deadline refusal hmove hbegun =>
      refine h.concat rfl rfl (by simp) (Due.ofRequest fun hjoins hup => ?_)
      rcases h.leftover hup with ⟨w, hw, hawaited⟩ | hleft
      · -- Another call would be about to join, though this one only begins.
        obtain rfl := hmove
        have hnone := hturns early operation hmoment.isPrefix hjoins w (hbegun.waiting ▸ hw)
        exact absurd (hnone.symm.trans (Pause.joins_of_awaited hawaited)) Bool.false_ne_true
      · exact hleft
    | wait call deadline pause hmove hbegun hpause hawaited =>
      refine h.concat rfl rfl (by simp) (Due.ofOther hawaited fun _ _ _ haddress => ?_)
      obtain rfl : pause = _ := haddress
      exact absurd hpause.symm Bool.false_ne_true
    | goOn w operation deadline refusal hmove hw hpause hended =>
      refine h.concat rfl rfl (by simp) (Due.ofRequest fun hjoins hup => ?_)
      rcases h.leftover hup with ⟨other, hother, hawaited⟩ | hleft
      · -- This call was to join already when it waited for the handshake.
        rw [hended] at hother
        obtain ⟨hother, hid⟩ := List.mem_filter.mp hother
        have hsame := hearly.alone other hother w hw (Pause.joins_of_awaited hawaited)
          (by rw [hpause]; exact hjoins)
        exact absurd (congrArg Waiting.id hsame) (of_decide_eq_true hid)
      · exact hleft
    | giveUp w hmove hw hdown =>
      refine h.drop ht hw rfl (fun hup => ⟨hup, fun hawaited => ?_⟩) (by simp)
      exact absurd ((hdown hawaited).symm.trans hup) Bool.false_ne_true
    | settle w guest arrived outcome hmove hw hpause =>
      refine h.drop ht hw rfl (fun hup => ⟨hup, ?_⟩) (by simp)
      simp [hpause, Pause.awaited]
    | waste w hmove hw => exact h.drop ht hw rfl (fun hup => by simp at hup) (by simp)
    | confirm w outcome hmove hw => exact h.drop ht hw rfl (fun hup => by simp at hup) (by simp)
    | confirmGuest w outcome deadline guest arrived hmove hw hpause hraised =>
      refine h.keep (fun hup => by simp at hup) fun w' hw' => ?_
      rcases List.mem_append.mp hw' with hw' | hw'
      · exact .inl ⟨w', (List.mem_filter.mp hw').1, rfl, rfl⟩
      · rw [List.mem_singleton.mp hw']
        have hcredited := (h.due w hw).credited (Pause.awaited_of_confirmed? hpause) hraised
        refine .inr ⟨?_, ?_, fun _ _ _ _ => hcredited.append []⟩
        · simp [Pause.awaited]
        · simp [Pause.awaited]
    | leave => exact h.keep (fun hup => by simp at hup) fun w hw => .inl ⟨w, hw, rfl, rfl⟩
    | closeLink => exact h.same rfl rfl (by simp)
    | updatePassphrase => exact h.same rfl rfl (by simp)
    | greet => exact h.same rfl (by simp) (by simp)
    | syncNetwork => exact h.same rfl rfl (by simp [NetworkChange.arrived, NetworkChange.left])
    | reject => exact h.same rfl rfl (by simp)
    | _ => exact h.same rfl rfl (by simp)

/-- A call that reports a network is let through by the latch, or was let through before and has its
address now. -/
theorem Step.finishes {origin t u : Session} {m : Move} {more first last : List Notice} {call : Nat}
    {outcome : Outcome} (h : Step origin m t u more)
    (hmore : more = first ++ .finished call outcome :: last) (hjoined : outcome.isJoined = true) :
    first = [] ∧ ∃ w ∈ t.waiting, w.id = call ∧
      (.joined ∈ w.pause.awaited ∧ t.latches.isRaised .joined = true ∨
        ∃ guest arrived, w.pause = .address guest arrived outcome) := by
  have hmem : .finished call outcome ∈ more :=
    hmore ▸ List.mem_append_right _ List.mem_cons_self
  cases h with
  | confirm w outcome' hmove hw hpause hraised =>
    obtain ⟨hfirst, hnotice⟩ := split_singleton hmore
    obtain ⟨hcall, rfl⟩ := Notice.finished.inj hnotice
    exact ⟨hfirst, w, hw, hcall, .inl ⟨Pause.awaited_of_confirmed? hpause, hraised⟩⟩
  | settle w guest arrived outcome' hmove hw hpause =>
    obtain ⟨hfirst, hnotice⟩ := split_singleton hmore
    obtain ⟨hcall, rfl⟩ := Notice.finished.inj hnotice
    exact ⟨hfirst, w, hw, hcall, .inr ⟨guest, arrived, hpause⟩⟩
  | say notice hnotice =>
    rw [(split_singleton hmore).2, Notice.isIncidental, hjoined] at hnotice
    exact absurd hnotice Bool.false_ne_true
  | _ => simp at hmem

/-- If networks are asked for one at a time, a call that reports a network goes on with a
confirmation that was handled after its request, or with one that was left over when it sent the
request. -/
theorem joined_on_confirmation {settings : Settings} {interfaces : Interfaces}
    {localAddress : Except IoError Endpoint} {s : Session}
    (hcreate : create settings interfaces localAddress = .ok s) {moves : List Move}
    (hturns : s.OneAtATime moves) {before after : List Notice} {call : Nat} {outcome : Outcome}
    (htold : (s.after moves).told = before ++ .finished call outcome :: after)
    (hjoined : outcome.isJoined = true) :
    ConfirmedSince before call ∨ s.RequestedOnLeftover moves before call := by
  have hcredits := invariant_credits hcreate hturns
  obtain ⟨early, m, told, first, last, rest, t, u, hmoment, hstep, rfl⟩ := exists_moment htold
  obtain ⟨rfl, w, hw, rfl, hthrough⟩ := hstep.finishes rfl hjoined
  have hdue := (hcredits.moment hmoment).due w hw
  rw [List.append_nil]
  rcases hthrough with ⟨hawaited, hraised⟩ | ⟨guest, arrived, hpause⟩
  · exact hdue.credited hawaited hraised
  · exact hdue.settled guest arrived outcome hpause

end Run

/-! ### A confirmation in time, and a late one -/

/-- The call reports a network. -/
def Notice.reports (call : Nat) : Notice → Bool
  | finished other outcome => other = call && outcome.isJoined
  | _ => false

theorem exists_of_reports {history : List Notice} {call : Nat}
    (hreports : history.any (Notice.reports call) = true) :
    ∃ before outcome after, history = before ++ .finished call outcome :: after ∧
      outcome.isJoined = true := by
  obtain ⟨notice, hmem, hnotice⟩ := List.any_eq_true.mp hreports
  obtain ⟨before, after, hsplit⟩ := List.append_of_mem hmem
  cases notice with
  | finished other outcome =>
    obtain ⟨hcall, hjoined⟩ := Bool.and_eq_true_iff.mp hnotice
    obtain rfl := of_decide_eq_true hcall
    exact ⟨before, outcome, after, hsplit, hjoined⟩
  | _ => exact nomatch hnotice

/-- The call has sent something. -/
def Notice.isPostOf (call : Nat) : Notice → Bool
  | posted caller _ _ _ => caller = some call
  | _ => false

/-- Nothing of the call is early, and no confirmation is late. -/
theorem not_confirmedSince {early late : List Notice} {call : Nat}
    (hearly : early.any (Notice.isPostOf call) = false)
    (hlate : late.any Notice.isConfirmation = false) : ¬ ConfirmedSince (early ++ late) call := by
  rintro ⟨before, since, ⟨packet, refusal, hsplit, -⟩, sender, info, hmem⟩
  rcases split_append hsplit with ⟨rest, rfl, -⟩ | ⟨between, -, rfl⟩
  · have hposted := List.any_eq_false.mp hearly (.posted (some call) .relay packet refusal)
      (List.mem_append_right _ List.mem_cons_self)
    exact hposted (decide_eq_true rfl)
  · exact List.any_eq_false.mp hlate _ (List.mem_append_right _ (List.mem_cons_of_mem _ hmem)) rfl

/-- A station asks to join. -/
def joiningRun : List Move :=
  [sampleCall (.connectPublic default), sampleDatagram (.hello default), .turn (.resume 0)]

theorem eq_nil_of_call_in_joiningRun {early : List Move} {operation : Operation}
    (hmoves : early ++ [.event (.call (.operate operation))] <+: joiningRun) : early = [] := by
  obtain ⟨rest, hrun⟩ := hmoves
  rcases early with _ | ⟨first, _ | ⟨second, _ | ⟨third, early⟩⟩⟩
  all_goals simp [joiningRun, sampleDatagram] at hrun
  rfl

theorem joined_of_joiningRun :
    let moves := joiningRun ++ [sampleDatagram (.connected default)] ++ [.turn (.resume 0)]
    create {} (.ok []) (.ok sampleAddress) = .ok sample ∧ sample.OneAtATime moves ∧
      ∃ before outcome after,
        (sample.after moves).told = before ++ .finished 0 outcome :: after ∧
          outcome.isJoined = true ∧
          (ConfirmedSince before 0 ∨ sample.RequestedOnLeftover moves before 0) := by
  intro moves
  have hcreate : create {} (.ok []) (.ok sampleAddress) = .ok sample := rfl
  have hturns : sample.OneAtATime moves := by
    intro early operation hmoves _
    rcases isPrefix_concat_cases hmoves with ⟨-, hlast⟩ | hmoves
    · exact nomatch hlast
    · rcases isPrefix_concat_cases hmoves with ⟨-, hlast⟩ | hmoves
      · exact nomatch hlast
      · obtain rfl := eq_nil_of_call_in_joiningRun hmoves
        exact fun _ => nofun
  have hconfirmed : sample.after (joiningRun ++ [sampleDatagram (.connected default)]) = _ :=
    after_sampleDatagram _ (by decide +kernel) (by decide +kernel) (by decide +kernel)
      (by decide +kernel)
  have hreports : (sample.after moves).told.any (Notice.reports 0) = true := by
    rw [after_concat, hconfirmed]
    decide +kernel
  obtain ⟨before, outcome, after, htold, hjoined⟩ := exists_of_reports hreports
  exact ⟨hcreate, hturns, before, outcome, after, htold, hjoined,
    joined_on_confirmation hcreate hturns htold hjoined⟩

/-- The station gives up, and then the confirmation comes. -/
def lateRun : List Move :=
  joiningRun ++ [.reach 4000] ++ [.turn (.resume 0)] ++ [sampleDatagram (.connected default)]

theorem after_lateRun : sample.after lateRun =
    (sample.after (joiningRun ++ [.reach 4000] ++ [.turn (.resume 0)])).followedBy
      (({ session := (sample.after (joiningRun ++ [.reach 4000] ++ [.turn (.resume 0)])).session } :
        Act).handle sample.relay (.connected default)) :=
  after_sampleDatagram _ (by decide +kernel) (by decide +kernel) (by decide +kernel)
    (by decide +kernel)

theorem oneAtATime_lateRun : sample.OneAtATime
    (lateRun ++ [sampleCall (.connectPublic default)] ++ [.turn (.resume 1)]) := by
  have hnobody : (sample.after lateRun).session.waiting.isEmpty = true := by
    rw [after_lateRun]
    decide +kernel
  intro early operation hmoves _
  rcases isPrefix_concat_cases hmoves with ⟨-, hlast⟩ | hmoves
  · exact nomatch hlast
  rcases isPrefix_concat_cases hmoves with ⟨rfl, -⟩ | hmoves
  · rw [List.isEmpty_iff.mp hnobody]
    exact fun _ => nofun
  rw [lateRun] at hmoves
  rcases isPrefix_concat_cases hmoves with ⟨-, hlast⟩ | hmoves
  · exact nomatch hlast
  rcases isPrefix_concat_cases hmoves with ⟨-, hlast⟩ | hmoves
  · exact nomatch hlast
  rcases isPrefix_concat_cases hmoves with ⟨-, hlast⟩ | hmoves
  · exact nomatch hlast
  obtain rfl := eq_nil_of_call_in_joiningRun hmoves
  exact fun _ => nofun

/-- The second call reports the network as soon as it has asked. -/
theorem joined_on_late_confirmation :
    let moves := lateRun ++ [sampleCall (.connectPublic default)] ++ [.turn (.resume 1)]
    create {} (.ok []) (.ok sampleAddress) = .ok sample ∧ sample.OneAtATime moves ∧
      ∃ before outcome after,
        (sample.after moves).told = before ++ .finished 1 outcome :: after ∧
          outcome.isJoined = true ∧ ¬ ConfirmedSince before 1 := by
  intro moves
  obtain ⟨late, hlate⟩ : ∃ late, late = ((sample.after lateRun).session.after
    [sampleCall (.connectPublic default), .turn (.resume 1)]).told := ⟨_, rfl⟩
  have htold : (sample.after moves).told = (sample.after lateRun).told ++ late := by
    have hmoves : moves = lateRun ++ [sampleCall (.connectPublic default), .turn (.resume 1)] :=
      List.append_assoc ..
    rw [hmoves, after_append, hlate]
    rfl
  have hreports : late.any (Notice.reports 1) = true := by
    rw [hlate, after_lateRun]
    decide +kernel
  have hunconfirmed : late.any Notice.isConfirmation = false := by
    rw [hlate, after_lateRun]
    decide +kernel
  have hunposted : (sample.after lateRun).told.any (Notice.isPostOf 1) = false := by
    rw [after_lateRun]
    decide +kernel
  obtain ⟨before, outcome, after, rfl, hjoined⟩ := exists_of_reports hreports
  refine ⟨rfl, oneAtATime_lateRun, (sample.after lateRun).told ++ before, outcome, after, ?_,
    hjoined, not_confirmedSince hunposted ?_⟩
  · rw [htold, List.append_assoc]
  · rw [List.any_append, Bool.or_eq_false_iff] at hunconfirmed
    exact hunconfirmed.1

end LocalPlay.Session
