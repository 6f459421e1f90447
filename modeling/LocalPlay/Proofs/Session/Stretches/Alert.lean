import LocalPlay.Proofs.Overlay.Deadlines
import LocalPlay.Proofs.Session.Stretches.Moves

/-!
# No wakeup of a call is lost

A call that waits is stirred when a latch it waits for is up, what it waits for has arrived, or its
time is over. Whatever stirs a call also puts its resumption among what is ready, and that stays
there until it has its turn. So in a session that is `Alert` whoever is stirred is about to look;
the receive loop, if it was told to stop, is about to see that; and the applicants and the idle
countdown have not overslept either.

Most acts are `Calm`: calls wait as before and are told nothing, and an alert session stays so. Some
of them, those that `Rests` is about, do not even make anything ready. The acts are gone through in
the order of their definitions.
-/

namespace LocalPlay.Session

open Net Wire Overlay Timing

/-! ### Alert sessions -/

/-- The end of the receive loop is waited for without a limit. -/
def Pause.isLimited : Pause → Bool
  | cleanup _ => false
  | _ => true

/-- What the call waits for has arrived. -/
def Pause.isAnswered : Pause → Bool
  | address _ arrived _ => arrived.isSome
  | cleanup ended => ended
  | _ => false

/-- The call waits for the address of this guest. -/
def Pause.isOfGuest (guest : Nat) : Pause → Bool
  | address own _ _ => own = guest
  | _ => false

namespace Waiting

/-- The wait without what has arrived so far. -/
def bare (w : Waiting) : Waiting :=
  { w with pause := w.pause.plan }

theorem bare_assigned (w : Waiting) (guest : Nat) (config : OverlayConfig) :
    (w.assigned guest config).bare = w.bare := by
  rw [assigned, bare, bare]
  split
  · rename_i hpause
    rw [hpause]
    rfl
  · rfl

/-- Nothing that has arrived is a latch. -/
theorem awaited_bare (w : Waiting) : w.bare.pause.awaited = w.pause.awaited := by
  rw [bare]
  cases w.pause with
  | _ => rfl

theorem exists_of_bare {waiting others : List Waiting}
    (h : waiting.map (·.bare) = others.map (·.bare)) {w : Waiting} (hw : w ∈ waiting) :
    ∃ other ∈ others, other.bare = w.bare :=
  List.mem_map.mp (h ▸ List.mem_map_of_mem hw)

theorem bare_released (w : Waiting) (call : Nat) : (w.released call).bare = w.bare := by
  rw [released, bare, bare]
  split
  · rename_i hpause
    split
    · rw [hpause]
      rfl
    · rfl
  · rfl

end Waiting

/-- What the call waits for is there, or its time is over. -/
def Stirs (s : Session) (w : Waiting) : Prop :=
  (w.pause.isLimited = true ∧ w.deadline.any (· ≤ s.clock) = true) ∨ w.pause.isAnswered = true ∨
    ∃ signal ∈ w.pause.awaited, s.latches.isRaised signal = true

/-- The activity is ready, or has its turn just now. -/
def AtHand (s : Session) (current : Option Activity) (activity : Activity) : Prop :=
  activity ∈ s.ready ∨ current = some activity

/-- Whoever has something to do is about to do it. -/
structure Alert (s : Session) (current : Option Activity) : Prop where
  calls : ∀ w ∈ s.waiting, s.Stirs w → s.AtHand current (.resume w.id)
  stops : ∀ w ∈ s.waiting, w.pause = .cleanup false → s.receiver = .stopping (.call w.id)
  ending : ∀ stopper, s.receiver = .stopping stopper → s.AtHand current .cleanup
  closed : s.phase = .idle → s.receiver = .absent ∨ s.receiver = .ended
  idle : ∀ time, s.idle.deadline = some time → s.clock < time
  hosted : ∀ host, s.hosted = some host → host.Reachable
  applicants : ∀ host, s.hosted = some host → ∀ applicant ∈ host.applicants,
    applicant.deadline ≤ s.clock → s.AtHand current (.host (.consider applicant.id))

/-- What calls, the receive loop and the idle countdown have of a session, but for latches. -/
structure Affairs where
  clock : Nat
  timeouts : Timeouts
  calls : Nat
  waiting : List Waiting
  receiver : Receiver
  phase : Phase
  idle : Countdown

def affairs (s : Session) : Affairs :=
  { clock := s.clock
    timeouts := s.timeouts
    calls := s.calls
    waiting := s.waiting
    receiver := s.receiver
    phase := s.phase
    idle := s.idle }

/-- All of a session that decides what is to be done. -/
def duties (s : Session) : Affairs × Latches Signal × List Activity × Option Host :=
  (s.affairs, s.latches, s.ready, s.hosted)

variable {s t : Session} {current : Option Activity}

/-- If no call has told the receive loop to stop, none waits for its end. -/
theorem Alert.ne_cleanup (h : s.Alert current)
    (hreceiver : ∀ call, s.receiver ≠ .stopping (.call call)) :
    ∀ w ∈ s.waiting, w.pause ≠ .cleanup false :=
  fun w hw hpause => hreceiver w.id (h.stops w hw hpause)

theorem Alert.ne_cleanup_of_idle (h : s.Alert current) (hidle : s.phase = .idle) :
    ∀ w ∈ s.waiting, w.pause ≠ .cleanup false := by
  refine h.ne_cleanup fun call hstopping => ?_
  have hclosed := h.closed hidle
  rw [hstopping] at hclosed
  rcases hclosed with hclosed | hclosed
  · cases hclosed
  · cases hclosed

/-- Nobody is stirred by less, and what is due stays so unless it is the proxy's and the proxy is
gone. -/
theorem Alert.keep (h : s.Alert current) (haffairs : t.affairs = s.affairs)
    (hlowered : ∀ signal, t.latches.isRaised signal = true → s.latches.isRaised signal = true)
    (hkept : ∀ activity ∈ s.ready, (∀ job, activity ≠ .host job) → activity ∈ t.ready)
    (hhosted : t.hosted = none ∨ t.hosted = s.hosted ∧ s.ready ⊆ t.ready) :
    t.Alert current := by
  have hclock : t.clock = s.clock := congrArg Affairs.clock haffairs
  have hwaiting : t.waiting = s.waiting := congrArg Affairs.waiting haffairs
  have hreceiver : t.receiver = s.receiver := congrArg Affairs.receiver haffairs
  have hphase : t.phase = s.phase := congrArg Affairs.phase haffairs
  have hidle : t.idle = s.idle := congrArg Affairs.idle haffairs
  have hhand {activity : Activity} (hjob : ∀ job, activity ≠ .host job)
      (hold : s.AtHand current activity) : t.AtHand current activity :=
    hold.imp (hkept _ · hjob) id
  refine ⟨fun w hw hstirs => hhand (by simp) (h.calls w (hwaiting ▸ hw) ?_),
    fun w hw hpause => ?_, fun stopper hstopping => hhand (by simp) (h.ending stopper ?_),
    fun hclosed => ?_, fun time htime => ?_, fun host hhost => ?_,
    fun host hhost applicant hmem hover => ?_⟩
  · rcases hstirs with hover | hanswered | ⟨signal, hawaited, hraised⟩
    · exact .inl ⟨hover.1, hclock ▸ hover.2⟩
    · exact .inr (.inl hanswered)
    · exact .inr (.inr ⟨signal, hawaited, hlowered signal hraised⟩)
  · rw [hreceiver]
    exact h.stops w (hwaiting ▸ hw) hpause
  · exact hreceiver ▸ hstopping
  · rw [hreceiver]
    exact h.closed (hphase ▸ hclosed)
  · rw [hclock]
    exact h.idle time (hidle ▸ htime)
  · rcases hhosted with hnone | ⟨hsame, -⟩
    · exact absurd (hhost.symm.trans hnone) (Option.some_ne_none host)
    · exact h.hosted host (hsame ▸ hhost)
  · rcases hhosted with hnone | ⟨hsame, hready⟩
    · exact absurd (hhost.symm.trans hnone) (Option.some_ne_none host)
    · exact (h.applicants host (hsame ▸ hhost) applicant hmem (hclock ▸ hover)).imp
        (fun hmem => hready hmem) id

/-- More may be ready than has to be. -/
theorem Alert.woken (h : s.Alert current) {ready : List Activity} (hready : s.ready ⊆ ready) :
    Alert { s with ready } current :=
  h.keep rfl (fun _ hraised => hraised) (fun _ hmem _ => hready hmem) (.inr ⟨rfl, hready⟩)

theorem Alert.raise (h : s.Alert current) {signal : Signal} {ready : List Activity}
    (hready : s.ready ⊆ ready)
    (hwoken : ∀ w ∈ s.waiting, signal ∈ w.pause.awaited → .resume w.id ∈ ready) :
    Alert { s with latches := s.latches.raise signal, ready } current := by
  have hall := h.woken hready
  refine { hall with calls := fun w hw hstirs => ?_ }
  rcases hstirs with hover | hanswered | ⟨other, hawaited, hraised⟩
  · exact hall.calls w hw (.inl hover)
  · exact hall.calls w hw (.inr (.inl hanswered))
  · by_cases hother : other = signal
    · exact .inl (hwoken w hw (hother ▸ hawaited))
    · rw [Latches.isRaised_raise, decide_eq_false hother, Bool.false_or] at hraised
      exact hall.calls w hw (.inr (.inr ⟨other, hawaited, hraised⟩))

/-- The host of some guests assigns an address, and they are woken. -/
theorem Alert.assign (h : s.Alert current) (membership : Membership) (guest : Nat)
    (config : OverlayConfig) {ready : List Activity} (hready : s.ready ⊆ ready)
    (hwoken : ∀ w ∈ s.waiting, ∀ arrived outcome, w.pause = .address guest arrived outcome →
      .resume w.id ∈ ready) :
    Alert { s with
      membership := some membership
      waiting := s.waiting.map (·.assigned guest config)
      ready } current := by
  have hall := h.woken hready
  refine { hall with calls := fun w' hw' hstirs => ?_, stops := fun w' hw' hpause => ?_ }
  · obtain ⟨w, hw, rfl⟩ := List.mem_map.mp hw'
    rw [w.id_assigned guest config]
    rw [Waiting.assigned] at hstirs
    split at hstirs
    · rename_i own arrived outcome hpause
      by_cases hown : own = guest
      · exact .inl (hwoken w hw arrived outcome (hown ▸ hpause))
      · refine hall.calls w hw ?_
        rw [if_neg hown] at hstirs
        rw [Stirs, hpause]
        exact hstirs
    · exact hall.calls w hw hstirs
  · obtain ⟨w, hw, rfl⟩ := List.mem_map.mp hw'
    rw [w.id_assigned guest config]
    rw [Waiting.assigned] at hpause
    split at hpause
    · cases hpause
    · exact hall.stops w hw hpause

/-- The receive loop has ended for a call, and the call is woken. -/
theorem Alert.release (h : s.Alert current) (call : Nat) {ready : List Activity}
    (hready : s.ready ⊆ ready) (hwoken : .resume call ∈ ready) :
    Alert { s with waiting := s.waiting.map (·.released call), ready } current := by
  have hall := h.woken hready
  refine { hall with calls := fun w' hw' hstirs => ?_, stops := fun w' hw' hpause => ?_ }
  · obtain ⟨w, hw, rfl⟩ := List.mem_map.mp hw'
    rw [w.id_released call]
    rw [Waiting.released] at hstirs
    split at hstirs
    · split at hstirs
      · rename_i hid
        exact .inl (hid ▸ hwoken)
      · exact hall.calls w hw hstirs
    · exact hall.calls w hw hstirs
  · obtain ⟨w, hw, rfl⟩ := List.mem_map.mp hw'
    rw [w.id_released call]
    rw [Waiting.released] at hpause
    split at hpause
    · split at hpause
      · cases hpause
      · exact hall.stops w hw hpause
    · exact hall.stops w hw hpause

/-- The proxy has moved, and nobody's first or last look was forgotten. -/
theorem Alert.rehost (h : s.Alert current) {next : Option Activity} {host : Host}
    {ready : List Activity} (hhost : host.Reachable)
    (hhand : ∀ activity, (∀ job, activity ≠ .host job) → s.AtHand current activity →
      activity ∈ ready ∨ next = some activity)
    (happlicants : ∀ applicant ∈ host.applicants, applicant.deadline ≤ s.clock →
      .host (.consider applicant.id) ∈ ready ∨ next = some (.host (.consider applicant.id))) :
    Alert { s with hosted := some host, ready } next where
  calls w hw hstirs := hhand _ (by simp) (h.calls w hw hstirs)
  stops := h.stops
  ending stopper hstopping := hhand _ (by simp) (h.ending stopper hstopping)
  closed := h.closed
  idle := h.idle
  hosted _ hown := Option.some.inj hown ▸ hhost
  applicants _ hown := Option.some.inj hown ▸ happlicants

/-- What has its turn need not be ready unless someone needs it again. -/
theorem Alert.turned {activity : Activity} (h : s.Alert (some activity))
    (hcalls : ∀ w ∈ s.waiting, s.Stirs w → activity ≠ .resume w.id)
    (hending : ∀ stopper, s.receiver = .stopping stopper → activity ≠ .cleanup)
    (happlicants : ∀ host, s.hosted = some host → ∀ applicant ∈ host.applicants,
      applicant.deadline ≤ s.clock → activity ≠ .host (.consider applicant.id)) :
    s.Alert none := by
  have hhand {other : Activity} (hother : activity ≠ other)
      (hhand : s.AtHand (some activity) other) : s.AtHand none other :=
    hhand.imp id fun hcurrent => absurd (Option.some.inj hcurrent) hother
  exact { h with
    calls := fun w hw hstirs => hhand (hcalls w hw hstirs) (h.calls w hw hstirs)
    ending := fun stopper hstopping =>
      hhand (hending stopper hstopping) (h.ending stopper hstopping)
    applicants := fun host hhost applicant hmem hover =>
      hhand (happlicants host hhost applicant hmem hover)
        (h.applicants host hhost applicant hmem hover) }

/-- The session without its link. -/
def unlinked (s : Session) (receiver : Receiver) : Session :=
  { s with
    receiver
    streams := []
    phase := .idle
    passphraseSent := none
    transportOpen := false }

/-- The link is closed when no call waits for that any more. -/
theorem Alert.unlink (h : s.Alert current) {next : Option Activity}
    (hnone : ∀ w ∈ s.waiting, w.pause ≠ .cleanup false)
    (hhand : ∀ activity, activity ≠ .cleanup → s.AtHand current activity → s.AtHand next activity)
    {receiver : Receiver} (hreceiver : receiver = .absent ∨ receiver = .ended) :
    (s.unlinked receiver).Alert next where
  calls w hw hstirs := hhand _ (by simp) (h.calls w hw hstirs)
  stops w hw hpause := absurd hpause (hnone w hw)
  ending stopper hstopping := by
    obtain rfl : receiver = .stopping stopper := hstopping
    rcases hreceiver with hreceiver | hreceiver
    · cases hreceiver
    · cases hreceiver
  closed _ := hreceiver
  idle := h.idle
  hosted := h.hosted
  applicants host hhost applicant hmem hover :=
    hhand _ (by simp) (h.applicants host hhost applicant hmem hover)

end LocalPlay.Session
