import LocalPlay.Proofs.Session.Plain

/-!
# Runs of a session

A session moves when something happens to it, when an activity that is ready gets its turn, and when
the clock is set. `step` and `wait` give every turn before anything else happens, in the order in
which the activities became ready, and stop the clock at every timer. A run is free to do
otherwise: the turns come in any order, and anything may happen between them. So what holds of all
runs holds of `step` and `wait`, which are runs by `step_eq_after` and `wait_eq_after`, and does not
depend on how activities are scheduled.
-/

namespace LocalPlay.Session

open Net Wire Overlay Timing

inductive Move where
  | event (event : Event)
  | turn (activity : Activity)
  | reach (time : Nat)

/-- What is not ready has no turn. -/
def move (s : Session) : Move → Act
  | .event event => (s.happen event).2
  | .turn activity =>
    if activity ∈ s.ready then
      ({ session := { s with ready := s.ready.erase activity } } : Act).perform activity
    else
      { session := s }
  | .reach time => { session := s.reach time }

namespace Act

/-- One stretch after the other. -/
def followedBy (a b : Act) : Act :=
  { session := b.session, told := a.told ++ b.told }

def next (a : Act) (m : Move) : Act :=
  a.followedBy (a.session.move m)

end Act

/-- The session after a run, with all that was told on the way. -/
def after (s : Session) (moves : List Move) : Act :=
  moves.foldl Act.next { session := s }

theorem after_concat (s : Session) (moves : List Move) (m : Move) :
    s.after (moves ++ [m]) = (s.after moves).next m :=
  List.foldl_append ..

theorem Act.followedBy_assoc (a b c : Act) :
    (a.followedBy b).followedBy c = a.followedBy (b.followedBy c) := by
  simp only [followedBy, List.append_assoc]

theorem foldl_next (a : Act) (moves : List Move) :
    moves.foldl Act.next a = a.followedBy (a.session.after moves) := by
  induction moves generalizing a with
  | nil => simp only [List.foldl_nil, after, Act.followedBy, List.append_nil]
  | cons m moves ih =>
    have htail : a.session.after (m :: moves) = _ := ih (({ session := a.session } : Act).next m)
    rw [List.foldl_cons, ih, htail, ← Act.followedBy_assoc]
    rfl

theorem after_cons (s : Session) (m : Move) (moves : List Move) :
    s.after (m :: moves) = (s.move m).followedBy ((s.move m).session.after moves) := by
  rw [after, List.foldl_cons, foldl_next]
  rfl

theorem after_append (s : Session) (moves more : List Move) :
    s.after (moves ++ more) = (s.after moves).followedBy ((s.after moves).session.after more) := by
  rw [after, List.foldl_append, foldl_next]
  rfl

/-! ### The runs that settle -/

theorem turn_eq_move {s next : Session} {told : List Notice} (hturn : s.turn = some (next, told)) :
    ∃ activity, s.move (.turn activity) = ⟨next, told⟩ := by
  rw [turn] at hturn
  split at hturn
  · exact nomatch hturn
  · rename_i activity ready hready
    refine ⟨activity, ?_⟩
    have hmem : activity ∈ s.ready := hready ▸ List.mem_cons_self
    obtain ⟨rfl, rfl⟩ := Option.some.inj hturn
    rw [move, if_pos hmem, hready, List.erase_cons_head]

theorem settleWithin_eq_after (turns : Nat) (s : Session) :
    ∃ activities : List Activity, s.after (activities.map .turn) =
      ⟨(machine.settleWithin turns s).1, (machine.settleWithin turns s).2⟩ := by
  induction turns generalizing s with
  | zero => exact ⟨[], rfl⟩
  | succ turns ih =>
    rw [Machine.settleWithin]
    cases hturn : machine.turn s with
    | none => exact ⟨[], rfl⟩
    | some result =>
      obtain ⟨next, told⟩ := result
      obtain ⟨activity, hmove⟩ := turn_eq_move hturn
      obtain ⟨activities, hrest⟩ := ih next
      refine ⟨activity :: activities, ?_⟩
      rw [List.map_cons, after_cons, hmove, hrest]
      rfl

theorem settle_eq_after (s : Session) :
    ∃ activities : List Activity,
      s.after (activities.map .turn) = ⟨(machine.settle s).1, (machine.settle s).2⟩ :=
  settleWithin_eq_after _ s

/-- Something happens, and the turns are given until nothing is ready. -/
theorem step_eq_after (s : Session) (event : Event) :
    ∃ activities : List Activity, s.after (.event event :: activities.map .turn) =
      ⟨(s.step event).2.1, (s.step event).2.2⟩ := by
  obtain ⟨activities, hsettle⟩ := settle_eq_after (s.happen event).2.session
  refine ⟨activities, ?_⟩
  rw [after_cons, move, hsettle, step]
  simp only [Act.followedBy]

theorem advanceWithin_eq_after (target stops : Nat) (s : Session) :
    ∃ moves : List Move, (∀ m ∈ moves, ∀ event, m ≠ .event event) ∧
      s.after moves =
        ⟨(machine.advanceWithin target stops s).1, (machine.advanceWithin target stops s).2⟩ := by
  have hlast (s : Session) : s.after [.reach target] = ⟨machine.reach target s, []⟩ := rfl
  have hnone : ∀ m ∈ [Move.reach target], ∀ event, m ≠ .event event := fun m hmem =>
    List.mem_singleton.mp hmem ▸ fun _ => nofun
  induction stops generalizing s with
  | zero => exact ⟨_, hnone, hlast s⟩
  | succ stops ih =>
    rw [Machine.advanceWithin]
    cases machine.due? s with
    | none => exact ⟨_, hnone, hlast s⟩
    | some time =>
      dsimp only
      split
      · exact ⟨_, hnone, hlast s⟩
      · obtain ⟨activities, hsettle⟩ := settle_eq_after (machine.reach time s)
        obtain ⟨moves, hmoves, hrest⟩ := ih (machine.settle (machine.reach time s)).1
        refine ⟨.reach time :: activities.map .turn ++ moves, fun m hmem => ?_, ?_⟩
        · rcases List.mem_append.mp hmem with hmem | hmem
          · rcases List.mem_cons.mp hmem with rfl | hmem
            · exact fun _ => nofun
            · obtain ⟨_, _, rfl⟩ := List.mem_map.mp hmem
              exact fun _ => nofun
          · exact hmoves m hmem
        · have hreach : s.after (.reach time :: activities.map .turn) =
              ⟨(machine.settle (machine.reach time s)).1,
                (machine.settle (machine.reach time s)).2⟩ := by
            rw [after_cons]
            exact congrArg (Act.followedBy _) hsettle
          rw [after_append, hreach, hrest]
          rfl

/-- Time passes, and nothing happens on the way but timers and turns. -/
theorem wait_eq_after (s : Session) (millis : Nat) :
    ∃ moves : List Move, (∀ m ∈ moves, ∀ event, m ≠ .event event) ∧
      s.after moves = ⟨(s.wait millis).1, (s.wait millis).2⟩ :=
  advanceWithin_eq_after ..

/-! ### What a move is -/

namespace Act

theorem Plain.start {s next : Session} (hhosted : next.hosted = s.hosted)
    (hstreams : next.streams = s.streams) :
    Plain ({ session := s } : Act) ({ session := next } : Act) :=
  ⟨.inl hhosted, .inl hstreams, [], rfl, fun _ => nofun⟩

theorem plain_reach (s : Session) (time : Nat) :
    Plain ({ session := s } : Act) ({ session := s.reach time } : Act) := by
  have hwoken (activities : List Activity) (s : Session) : Plain ({ session := s } : Act)
      { session := (activities.foldl (fun a activity => a.wake activity)
        ({ session := s } : Act)).session } := by
    have hwake := Plain.foldl (a := { session := s }) (fun _ activity h => h.wake activity)
      activities (.refl _)
    exact ⟨hwake.hosted, hwake.streams, [], rfl, fun _ => nofun⟩
  have hclock : Plain ({ session := s } : Act)
      { session := { s with clock := time, idle := (s.idle.reach time).2 } } := .start rfl rfl
  rw [reach]
  exact hclock.trans (hwoken _ _)

end Act

/-- A move is plain, or a datagram that is received, or a job of the hosted proxy. -/
theorem move_cases (s : Session) (m : Move) :
    Act.Plain { session := s } (s.move m) ∨
    (∃ sender bytes, m = .event (.datagram sender bytes) ∧ s.isListening = true ∧
      s.move m = ({ session := s } : Act).receive sender bytes) ∨
    ∃ job host, m = .turn (.host job) ∧ .host job ∈ s.ready ∧ s.hosted = some host ∧
      s.move m = ({ session := { s with ready := s.ready.erase (.host job) } } : Act).adopt
        (host.move (.perform s.clock s.link job)) := by
  cases m with
  | reach time => exact .inl (Act.plain_reach s time)
  | turn activity =>
    have hturn : Act.Plain { session := s }
        { session := { s with ready := s.ready.erase activity } } := .start rfl rfl
    rw [move]
    split
    · rename_i hready
      cases activity with
      | resume call => exact .inl (hturn.resume call)
      | cleanup => exact .inl hturn.cleanup
      | idleStop => exact .inl (hturn.stopReceiver .idleCountdown)
      | host job =>
        rw [Act.perform]
        rcases Option.eq_none_or_eq_some s.hosted with hhost | ⟨host, hhost⟩
        · rw [Act.atHost_of_none hhost]
          exact .inl hturn
        · rw [Act.atHost_of_some hhost]
          exact .inr (.inr ⟨job, host, rfl, hready, hhost, rfl⟩)
    · exact .inl (.refl _)
  | event event =>
    cases event with
    | call call =>
      have hcall : Act.Plain { session := s } { session := { s with calls := s.calls + 1 } } :=
        .start rfl rfl
      exact .inl (hcall.begin s.calls call)
    | datagram sender bytes =>
      rw [move, happen]
      split
      · rename_i hlistening
        exact .inr (.inl ⟨sender, bytes, rfl, hlistening, rfl⟩)
      · exact .inl (.refl _)
    | receiveError error =>
      rw [move, happen]
      split
      · exact .inl ((Act.Plain.refl _).receiveFailed error)
      · exact .inl (.refl _)
    | setPassphrase text =>
      rw [move, happen]
      split
      · exact .inl (.start rfl rfl)
      · exact .inl (.refl _)
    | setGameVersion version => exact .inl (.start rfl rfl)
    | setOpenFault error => exact .inl (.start rfl rfl)
    | setFault target error => exact .inl (.start rfl rfl)

end LocalPlay.Session
