import LocalPlay.Proofs.Session.Waiting
import LocalPlay.Proofs.Timing.WaitingRoom

/-!
# The waiting room of a session

The calls of a session that wait for latches are in a waiting room: with the session's clock, its
latches and their deadlines. A call that has a turn looks at its latches as everybody does there, and
goes on with what it is told: `resume_eq_heed`. In a punctual run no call is late for its look. So
what is certain of waiting rooms is certain of these calls: `waits_on_latches`.
-/

namespace LocalPlay.Session

open Net Wire Overlay Timing

/-- The wait of a call whose time is limited. -/
def Waiting.wait? (w : Waiting) : Option (Wait Signal) :=
  w.deadline.map fun deadline => ⟨w.id, w.pause.awaited, deadline⟩

/-- The room of the calls that wait for latches. -/
def waitingRoom (s : Session) : WaitingRoom Signal where
  clock := s.clock
  latches := s.latches
  waits := (s.waiting.filter (·.pause.awaited ≠ [])).filterMap (·.wait?)

/-- What a call does that was told this in the waiting room. -/
def Act.heed (a : Act) (w : Waiting) (c : WaitingRoom.Course Signal) : Act :=
  match c.told with
  | [.letThrough _ index] => (a.endWait w.id c.room.latches).goOn w.id (some index) w.pause
  | [.timedOut _] => (a.endWait w.id c.room.latches).goOn w.id none w.pause
  | _ => a

variable {s t : Session} {w : Waiting} {moves : List Move}

theorem Act.resume_eq_heed {a : Act} {wait : Wait Signal}
    (hfind : a.session.waiting.find? (·.id == w.id) = some w) (hawaited : w.pause.awaited ≠ [])
    (hwait : w.wait? = some wait) :
    a.resume w.id = a.heed w (a.session.waitingRoom.look Signal.once wait) := by
  obtain ⟨deadline, hdeadline, rfl⟩ := Option.map_eq_some_iff.mp hwait
  rw [resume, hfind]
  dsimp only
  split
  · next hpause => exact absurd (by rw [hpause]; rfl) hawaited
  · next hpause => exact absurd (by rw [hpause]; rfl) hawaited
  · rw [heed, WaitingRoom.look, hdeadline, Option.any_some, waitingRoom]
    generalize a.session.latches.glance Signal.once w.pause.awaited _ = result
    obtain ⟨glance, latches⟩ := result
    cases glance with
    | _ => rfl

theorem Call.First.exists_timeout {timeouts : Timeouts} {call : Call} {timeout : Option Nat}
    {pause : Pause} (h : call.First timeouts timeout pause) (hawaited : pause.awaited ≠ []) :
    ∃ millis, timeout = some millis := by
  cases h with
  | stop => exact absurd rfl hawaited
  | leaveAndStop => exact absurd rfl hawaited
  | _ => exact ⟨_, rfl⟩

/-- The time of a call that waits for latches is limited, and in a punctual run it is not late. -/
theorem exists_deadline (hnobody : s.waiting = []) (hpunctual : s.Punctual moves)
    (hw : w ∈ (s.after moves).session.waiting) (hawaited : w.pause.awaited ≠ []) :
    ∃ deadline, w.deadline = some deadline ∧ (s.after moves).session.clock ≤ deadline := by
  induction moves using List.reverseRecOn generalizing w with
  | nil =>
    rw [after, List.foldl_nil, hnobody] at hw
    cases hw
  | append_singleton moves m ih =>
    obtain ⟨hbefore, hlast⟩ := punctual_append.mp hpunctual
    rw [after_concat] at hw ⊢
    show ∃ deadline, w.deadline = some deadline ∧
      ((s.after moves).session.move m).session.clock ≤ deadline
    cases arises hw with
    | @before v hv hbare =>
      obtain rfl := Waiting.eq_of_bare hawaited hbare.symm
      obtain ⟨deadline, hdeadline, hclock⟩ := ih hbefore hv hawaited
      refine ⟨deadline, hdeadline, ?_⟩
      by_cases hreach : ∃ time, m = .reach time
      · obtain ⟨time, rfl⟩ := hreach
        obtain ⟨ready, heq, -⟩ := (s.after moves).session.exists_reach_eq time
        rw [move, heq]
        exact hlast [] time [] rfl v hv deadline hdeadline
      · rwa [clock_move fun time hmove => hreach ⟨time, hmove⟩]
    | begins hmove _ hfirst hdeadline =>
      subst hmove
      obtain ⟨millis, rfl⟩ := hfirst.exists_timeout hawaited
      refine ⟨_, hdeadline, ?_⟩
      rw [clock_move (by simp)]
      exact Nat.le_add_right _ _
    | goesOn hmove _ _ _ hdeadline =>
      subst hmove
      refine ⟨_, hdeadline, ?_⟩
      rw [clock_move (by simp)]
      exact Nat.le_add_right _ _

theorem mem_waitingRoom (hw : w ∈ s.waiting) (hawaited : w.pause.awaited ≠ []) {wait : Wait Signal}
    (hwait : w.wait? = some wait) : wait ∈ s.waitingRoom.waits := by
  refine List.mem_filterMap.mpr ⟨w, List.mem_filter.mpr ⟨hw, ?_⟩, hwait⟩
  exact decide_eq_true hawaited

/-- Every waiting room is orderly, whatever its latches, whoever waits there for which of them, and in
whatever order things happen: the first raised latch lets through, not after the time is over, and
only that latch is changed, and only if it lets through once; without a raised latch somebody leaves
just when his time is over, and no latch is changed; and from the moment at which a latch is raised
to the one at which it lets somebody through, it is neither reset nor lets it anybody else through
if it does so once. The calls of a session that wait for latches are in such a room, and go on with
what they are told there. -/
theorem waits_on_latches {κ : Type} [DecidableEq κ] (once : κ → Bool)
    (moves : List (WaitingRoom.Move κ)) :
    WaitingRoom.Orderly once moves ∧
    ∀ settings interfaces localAddress s sessionMoves,
      create settings interfaces localAddress = .ok s → s.Punctual sessionMoves →
      ∀ w ∈ (s.after sessionMoves).session.waiting, w.pause.awaited ≠ [] →
        let t := (s.after sessionMoves).session
        ∃ wait, w.wait? = some wait ∧ wait ∈ t.waitingRoom.waits ∧
          WaitingRoom.Looks Signal.once t.waitingRoom wait (t.waitingRoom.look Signal.once wait) ∧
          ∀ ready, ({ session := { t with ready } } : Act).resume w.id =
            ({ session := { t with ready } } : Act).heed w
              (t.waitingRoom.look Signal.once wait) := by
  refine ⟨WaitingRoom.orderly once moves, ?_⟩
  intro settings interfaces localAddress s sessionMoves hcreate hpunctual w hw hawaited t
  have hnobody : s.waiting = [] := by
    obtain ⟨relay, rfl⟩ := create_eq hcreate
    rfl
  have hsound : t.Sound := (sound_create hcreate).after sessionMoves
  obtain ⟨deadline, hdeadline, hclock⟩ := exists_deadline hnobody hpunctual hw hawaited
  have hwait : w.wait? = some ⟨w.id, w.pause.awaited, deadline⟩ := by
    rw [Waiting.wait?, hdeadline, Option.map_some]
  refine ⟨_, hwait, mem_waitingRoom hw hawaited hwait, WaitingRoom.looks _ hclock, fun ready => ?_⟩
  exact Act.resume_eq_heed (hsound.numbered.find?_eq hw) hawaited hwait

/-! ### A crowded room -/

/-- Two wait for a latch that lets through once; one of them would rather be let through by another.
The latch is raised and reset before anybody looks, then both are raised. Somebody who comes later
finds no latch raised. -/
def crowd : List (WaitingRoom.Move Signal) :=
  [.enter 0 .relayError [.joined] 100, .enter 1 .joined [] 50, .raise .joined, .lower .joined,
    .look ⟨1, [.joined], 50⟩, .raise .joined, .raise .relayError,
    .look ⟨0, [.relayError, .joined], 100⟩, .look ⟨1, [.joined], 50⟩, .enter 2 .joined [] 30,
    .pass 100]

/-- What is told before the second is let through. -/
def crowdTold : List (WaitingRoom.Notice Signal) :=
  [.raised .joined, .lowered .joined, .raised .joined, .raised .relayError,
    .letThrough ⟨0, [.relayError, .joined], 100⟩ 0]

/-- The one who comes later has a turn when his time is over; a call of a session that waits for a
handshake has one before. -/
theorem waits_on_latches_of_crowd :
    let c := WaitingRoom.course Signal.once crowd
    let t := (sample.after [sampleCall (.scan default)]).session
    c.told = crowdTold ++ [.letThrough ⟨1, [.joined], 50⟩ 0] ∧
      WaitingRoom.RaisedSince Signal.once .joined crowdTold ∧
      c.room.clock = 30 ∧
      WaitingRoom.Looks Signal.once c.room ⟨2, [.joined], 30⟩
        (c.room.look Signal.once ⟨2, [.joined], 30⟩) ∧
      create {} (.ok []) (.ok sampleAddress) = .ok sample ∧
      WaitingRoom.Looks Signal.once t.waitingRoom ⟨0, [.handshake, .relayError], 4000⟩
        (t.waitingRoom.look Signal.once ⟨0, [.handshake, .relayError], 4000⟩) := by
  intro c t
  have htold : c.told = crowdTold ++ [.letThrough ⟨1, [.joined], 50⟩ 0] := by decide
  have hcreate : create {} (.ok []) (.ok sampleAddress) = .ok sample := rfl
  have hpunctual : sample.Punctual [sampleCall (.scan default)] :=
    punctual_of_not_reach _ (by simp [sampleCall])
  obtain ⟨horderly, hcalls⟩ := waits_on_latches Signal.once crowd
  obtain ⟨name, hname, hsince⟩ := horderly.raised _ _ _ _ htold
  obtain rfl := Option.some.inj hname
  have hwaiting : t.waiting = [⟨0, some 4000, .handshake (.scan default)⟩] := rfl
  obtain ⟨wait, hwait, -, hlooks, -⟩ :=
    hcalls _ _ _ _ _ hcreate hpunctual _ (hwaiting ▸ List.mem_singleton_self _) (by decide)
  obtain rfl := Option.some.inj hwait
  exact ⟨htold, hsince, by decide, (horderly.looks _ (by decide)).2, hcreate, hlooks⟩

end LocalPlay.Session
