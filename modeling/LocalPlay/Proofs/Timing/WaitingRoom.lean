import Mathlib.Data.List.Induction
import LocalPlay.Proofs.Splits
import LocalPlay.Proofs.Timing.Latch

/-!
# Waiting rooms

All who wait for latches share a room with them. Latches are raised and lowered, time passes, and
those who wait look at their latches whenever they have a turn; nothing is assumed of the order. The
clock stops where the time of somebody who waits is over, until he has looked and left.

Whoever is let through has found the first of his latches that is raised, and in time. Whoever has
found none by the end of his time leaves then and changes nothing: `Looks`. And since the latch was
raised that lets somebody through, nothing has lowered it, neither a reset nor that somebody else was
let through: `raisedSince_of_letThrough`.
-/

namespace LocalPlay.Timing

/-- Somebody waits for the first of some latches that is raised. -/
structure Wait (κ : Type) where
  id : Nat
  awaited : List κ
  deadline : Nat
  deriving DecidableEq

structure WaitingRoom (κ : Type) where
  clock : Nat := 0
  latches : Latches κ := {}
  waits : List (Wait κ) := []
  deriving DecidableEq

namespace WaitingRoom

/-- What is told of a room. -/
inductive Notice (κ : Type) where
  | raised (name : κ)
  | lowered (name : κ)
  /-- Let through by the latch at this place of those awaited. -/
  | letThrough (wait : Wait κ) (index : Nat)
  | timedOut (wait : Wait κ)
  deriving DecidableEq

/-- A room on its way, with what has been told of it so far. -/
structure Course (κ : Type) where
  room : WaitingRoom κ := {}
  told : List (Notice κ) := []
  deriving DecidableEq

inductive Move (κ : Type) where
  | raise (name : κ)
  | lower (name : κ)
  /-- Somebody begins to wait, for at least one latch. -/
  | enter (id : Nat) (first : κ) (others : List κ) (timeout : Nat)
  /-- Somebody who waits has a turn. -/
  | look (wait : Wait κ)
  | pass (millis : Nat)
  deriving DecidableEq

/-- Whom an answer is for. -/
def Notice.answers? {κ : Type} : Notice κ → Option (Wait κ)
  | letThrough wait _ | timedOut wait => some wait
  | raised _ | lowered _ => none

variable {κ : Type}

/-- What the clock shows after some time: it does not run past the end of anybody's time. -/
def nextTime (room : WaitingRoom κ) (millis : Nat) : Nat :=
  ((room.clock + millis) :: room.waits.map (·.deadline)).min (List.cons_ne_nil _ _)

variable [DecidableEq κ] (once : κ → Bool)

def look (room : WaitingRoom κ) (wait : Wait κ) : Course κ :=
  let (glance, latches) := room.latches.glance once wait.awaited (wait.deadline ≤ room.clock)
  let left := { room with latches, waits := room.waits.erase wait }
  match glance with
  | .fired index => ⟨left, [.letThrough wait index]⟩
  | .timedOut => ⟨left, [.timedOut wait]⟩
  | .waiting => ⟨room, []⟩

def move (room : WaitingRoom κ) : Move κ → Course κ
  | .raise name => ⟨{ room with latches := room.latches.raise name }, [.raised name]⟩
  | .lower name => ⟨{ room with latches := room.latches.lower name }, [.lowered name]⟩
  | .enter id first others timeout =>
    ⟨{ room with waits := room.waits ++ [⟨id, first :: others, room.clock + timeout⟩] }, []⟩
  | .look wait => if wait ∈ room.waits then room.look once wait else ⟨room, []⟩
  | .pass millis => ⟨{ room with clock := room.nextTime millis }, []⟩

def Course.next (c : Course κ) (m : Move κ) : Course κ :=
  let c' := c.room.move once m
  ⟨c'.room, c.told ++ c'.told⟩

/-- What moves make of an empty room in which no latch is raised. -/
def course (moves : List (Move κ)) : Course κ :=
  moves.foldl (Course.next once) {}

/-- The latch is lowered by this: it is reset, or has let somebody through and does so once. -/
def Notice.lowers (name : κ) : Notice κ → Bool
  | lowered other => other = name
  | letThrough wait index => once name && wait.awaited[index]? = some name
  | raised _ | timedOut _ => false

/-- The latch has been raised, and nothing has lowered it since. -/
def RaisedSince (name : κ) (told : List (Notice κ)) : Prop :=
  ∃ before after, told = before ++ .raised name :: after ∧
    ∀ notice ∈ after, notice.lowers once name = false

/-- What comes of a look: the first raised latch lets through, unless the time is over at which
nobody has raised one. -/
inductive Looks (room : WaitingRoom κ) (wait : Wait κ) : Course κ → Prop
  | letThrough {index : Nat} {name : κ} {latches : Latches κ}
      (hname : wait.awaited[index]? = some name) (hraised : room.latches.isRaised name = true)
      (hfirst : ∀ i other, i < index → wait.awaited[i]? = some other →
        room.latches.isRaised other = false)
      (hclock : room.clock ≤ wait.deadline)
      (hlatches : latches = if once name then room.latches.lower name else room.latches) :
    Looks room wait
      ⟨{ room with latches, waits := room.waits.erase wait }, [.letThrough wait index]⟩
  | timedOut (hdown : ∀ name ∈ wait.awaited, room.latches.isRaised name = false)
      (hclock : room.clock = wait.deadline) :
    Looks room wait ⟨{ room with waits := room.waits.erase wait }, [.timedOut wait]⟩
  | waitsOn (hdown : ∀ name ∈ wait.awaited, room.latches.isRaised name = false)
      (hclock : room.clock < wait.deadline) : Looks room wait ⟨room, []⟩

variable {once} {room : WaitingRoom κ} {wait : Wait κ} {name : κ} {moves : List (Move κ)}
  {told more : List (Notice κ)}

/-! ### One look -/

theorem looks (once : κ → Bool) (hclock : room.clock ≤ wait.deadline) :
    Looks once room wait (room.look once wait) := by
  rw [look]
  generalize hglance : room.latches.glance once wait.awaited _ = result
  obtain ⟨glance, latches⟩ := result
  cases glance with
  | fired index =>
    obtain ⟨name, hname, hraised, hfirst, hlatches⟩ := Latches.glance_fired hglance
    exact .letThrough hname hraised hfirst hclock hlatches
  | timedOut =>
    obtain ⟨hdown, hover, rfl⟩ := Latches.glance_timedOut hglance
    exact .timedOut hdown (Nat.le_antisymm hclock (of_decide_eq_true hover))
  | waiting =>
    obtain ⟨hdown, hahead⟩ := Latches.glance_waiting hglance
    exact .waitsOn hdown (Nat.lt_of_not_le (of_decide_eq_false hahead))

theorem Looks.mem_waits {c : Course κ} (h : Looks once room wait c) {other : Wait κ}
    (hother : other ∈ c.room.waits) : other ∈ room.waits := by
  cases h with
  | letThrough => exact List.mem_of_mem_erase hother
  | timedOut => exact List.mem_of_mem_erase hother
  | waitsOn => exact hother

theorem Looks.clock_eq {c : Course κ} (h : Looks once room wait c) : c.room.clock = room.clock := by
  cases h with
  | _ => rfl

/-! ### Who waits -/

theorem course_concat (once : κ → Bool) (moves : List (Move κ)) (m : Move κ) :
    course once (moves ++ [m]) = (course once moves).next once m :=
  List.foldl_append ..

omit [DecidableEq κ] in
theorem nextTime_le (millis : Nat) (hwait : wait ∈ room.waits) :
    room.nextTime millis ≤ wait.deadline :=
  List.min_le_of_mem (List.mem_cons_of_mem _ (List.mem_map_of_mem hwait))

/-- Where a wait comes from. -/
def Entered (once : κ → Bool) (moves : List (Move κ)) (wait : Wait κ) : Prop :=
  ∃ before first others timeout, before ++ [.enter wait.id first others timeout] <+: moves ∧
    wait.awaited = first :: others ∧ wait.deadline = (course once before).room.clock + timeout

theorem Entered.append (h : Entered once moves wait) (more : List (Move κ)) :
    Entered once (moves ++ more) wait := by
  obtain ⟨before, first, others, timeout, hprefix, hrest⟩ := h
  exact ⟨before, first, others, timeout, hprefix.trans (List.prefix_append _ _), hrest⟩

/-- Somebody who waits after a move has waited before, and not too long, or begins to wait. -/
theorem mem_waits_move {m : Move κ} (htimely : ∀ other ∈ room.waits, room.clock ≤ other.deadline)
    (hwait : wait ∈ (room.move once m).room.waits) :
    (room.move once m).room.clock ≤ wait.deadline ∧
      (wait ∈ room.waits ∨ ∃ first others timeout, m = .enter wait.id first others timeout ∧
        wait.awaited = first :: others ∧ wait.deadline = room.clock + timeout) := by
  cases m with
  | raise name => exact ⟨htimely wait hwait, .inl hwait⟩
  | lower name => exact ⟨htimely wait hwait, .inl hwait⟩
  | pass millis => exact ⟨nextTime_le millis hwait, .inl hwait⟩
  | enter id first others timeout =>
    rcases List.mem_append.mp hwait with hold | hnew
    · exact ⟨htimely wait hold, .inl hold⟩
    · obtain rfl := List.mem_singleton.mp hnew
      exact ⟨Nat.le_add_right _ _, .inr ⟨first, others, timeout, rfl, rfl, rfl⟩⟩
  | look own =>
    rw [move] at hwait ⊢
    split at hwait
    · next hown =>
      have hlooks := looks once (htimely own hown)
      have hmem := hlooks.mem_waits hwait
      rw [if_pos hown, hlooks.clock_eq]
      exact ⟨htimely wait hmem, .inl hmem⟩
    · next hnot =>
      rw [if_neg hnot]
      exact ⟨htimely wait hwait, .inl hwait⟩

theorem entered_in_time (moves : List (Move κ)) :
    ∀ wait ∈ (course once moves).room.waits,
      Entered once moves wait ∧ (course once moves).room.clock ≤ wait.deadline := by
  induction moves using List.reverseRecOn with
  | nil => exact fun _ hwait => nomatch hwait
  | append_singleton moves m ih =>
    intro wait hwait
    rw [course_concat] at hwait ⊢
    obtain ⟨hclock, hold | ⟨first, others, timeout, rfl, hnew⟩⟩ :=
      mem_waits_move (fun other hother => (ih other hother).2) hwait
    · exact ⟨(ih wait hold).1.append [m], hclock⟩
    · exact ⟨⟨moves, first, others, timeout, List.prefix_rfl, hnew⟩, hclock⟩

/-! ### What is told -/

/-- An answer is all that is told of a look. -/
theorem look_of_answer {m : Move κ} {notice : Notice κ}
    (htimely : ∀ other ∈ room.waits, room.clock ≤ other.deadline)
    (hnotice : notice ∈ (room.move once m).told) (hanswer : notice.answers? = some wait) :
    m = .look wait ∧ wait ∈ room.waits ∧ (room.move once m).told = [notice] := by
  cases m with
  | raise name =>
    obtain rfl := List.mem_singleton.mp hnotice
    cases hanswer
  | lower name =>
    obtain rfl := List.mem_singleton.mp hnotice
    cases hanswer
  | enter id first others timeout => cases hnotice
  | pass millis => cases hnotice
  | look own =>
    rw [move] at hnotice ⊢
    split at hnotice
    · next hown =>
      rw [if_pos hown]
      have hlooks := looks once (htimely own hown)
      generalize room.look once own = c at hlooks hnotice ⊢
      cases hlooks with
      | waitsOn => cases hnotice
      | letThrough =>
        obtain rfl := List.mem_singleton.mp hnotice
        obtain rfl := Option.some.inj hanswer
        exact ⟨rfl, hown, rfl⟩
      | timedOut =>
        obtain rfl := List.mem_singleton.mp hnotice
        obtain rfl := Option.some.inj hanswer
        exact ⟨rfl, hown, rfl⟩
    · cases hnotice

/-- Whoever is answered has waited until then, and has looked. -/
theorem exists_look_of_answer {before after : List (Notice κ)} {notice : Notice κ}
    (htold : (course once moves).told = before ++ notice :: after)
    (hanswer : notice.answers? = some wait) :
    ∃ early, early ++ [.look wait] <+: moves ∧ (course once early).told = before ∧
      wait ∈ (course once early).room.waits ∧
      ((course once early).room.look once wait).told = [notice] := by
  induction moves using List.reverseRecOn generalizing after with
  | nil => simp [course] at htold
  | append_singleton moves m ih =>
    rw [course_concat] at htold
    rcases split_append htold with ⟨rest, hold, -⟩ | ⟨between, rfl, hnew⟩
    · obtain ⟨early, hprefix, hrest⟩ := ih hold
      exact ⟨early, hprefix.trans (List.prefix_append _ _), hrest⟩
    · have hnotice : notice ∈ ((course once moves).room.move once m).told := by simp [hnew]
      obtain ⟨rfl, hwait, honly⟩ := look_of_answer
        (fun other hother => (entered_in_time moves other hother).2) hnotice hanswer
      obtain ⟨rfl, -⟩ := split_singleton (honly.symm.trans hnew)
      rw [move, if_pos hwait] at honly
      exact ⟨moves, List.prefix_rfl, (List.append_nil _).symm, hwait, honly⟩

theorem RaisedSince.append (h : RaisedSince once name told)
    (hmore : ∀ notice ∈ more, notice.lowers once name = false) :
    RaisedSince once name (told ++ more) := by
  obtain ⟨before, after, rfl, hafter⟩ := h
  refine ⟨before, after ++ more, by simp, fun notice hnotice => ?_⟩
  rcases List.mem_append.mp hnotice with hold | hnew
  · exact hafter notice hold
  · exact hmore notice hnew

/-- What lowers a latch is told, and so is what raises it. -/
theorem raisedSince_move {m : Move κ}
    (htimely : ∀ other ∈ room.waits, room.clock ≤ other.deadline)
    (hsince : ∀ name, room.latches.isRaised name = true → RaisedSince once name told)
    (hraised : (room.move once m).room.latches.isRaised name = true) :
    RaisedSince once name (told ++ (room.move once m).told) := by
  cases m with
  | enter id first others timeout => exact (hsince name hraised).append (by simp [move])
  | pass millis => exact (hsince name hraised).append (by simp [move])
  | raise other =>
    by_cases hother : name = other
    · exact ⟨told, [], by simp [move, hother], by simp⟩
    · have hbefore : room.latches.isRaised name = true := by simpa [move, hother] using hraised
      exact (hsince name hbefore).append (by simp [move, Notice.lowers])
  | lower other =>
    have hbefore : name ≠ other ∧ room.latches.isRaised name = true := by
      simpa [move] using hraised
    refine (hsince name hbefore.2).append ?_
    simp [move, Notice.lowers, Ne.symm hbefore.1]
  | look own =>
    rw [move] at hraised ⊢
    split at hraised
    · next hown =>
      rw [if_pos hown]
      have hlooks := looks once (htimely own hown)
      generalize room.look once own = c at hlooks hraised ⊢
      cases hlooks with
      | waitsOn => exact (hsince name hraised).append (by simp)
      | timedOut => exact (hsince name hraised).append (by simp [Notice.lowers])
      | @letThrough index other latches hname _ _ _ hlatches =>
        subst hlatches
        cases honce : once other with
        | false =>
          have hbefore : room.latches.isRaised name = true := by simpa [honce] using hraised
          refine (hsince name hbefore).append ?_
          simp only [List.mem_singleton, forall_eq, Notice.lowers, hname]
          grind
        | true =>
          have hbefore : name ≠ other ∧ room.latches.isRaised name = true := by
            simpa [honce] using hraised
          refine (hsince name hbefore.2).append ?_
          simp [Notice.lowers, hname, Ne.symm hbefore.1]
    · next hnot =>
      rw [if_neg hnot]
      exact (hsince name hraised).append (by simp)

theorem raisedSince_course (moves : List (Move κ)) :
    ∀ name, (course once moves).room.latches.isRaised name = true →
      RaisedSince once name (course once moves).told := by
  induction moves using List.reverseRecOn with
  | nil => exact fun _ hraised => nomatch hraised
  | append_singleton moves m ih =>
    intro name hraised
    rw [course_concat] at hraised ⊢
    exact raisedSince_move (fun other hother => (entered_in_time moves other hother).2) ih hraised

/-- The latch that lets somebody through has been raised, and nothing has lowered it since. -/
theorem raisedSince_of_letThrough {before after : List (Notice κ)} {index : Nat}
    (htold : (course once moves).told = before ++ .letThrough wait index :: after) :
    ∃ name, wait.awaited[index]? = some name ∧ RaisedSince once name before := by
  obtain ⟨early, -, rfl, hwait, hanswer⟩ := exists_look_of_answer htold rfl
  have hlooks := looks once (entered_in_time early wait hwait).2
  generalize (course once early).room.look once wait = c at hlooks hanswer
  cases hlooks with
  | letThrough hname hraised =>
    cases hanswer
    exact ⟨_, hname, raisedSince_course early _ hraised⟩
  | timedOut => cases hanswer
  | waitsOn => cases hanswer

/-! ### Rooms -/

/-- What is certain of a room after these moves. -/
structure Orderly (once : κ → Bool) (moves : List (Move κ)) : Prop where
  /-- Whenever somebody who waits has a turn, he looks like this. -/
  looks : ∀ wait ∈ (course once moves).room.waits, Entered once moves wait ∧
    Looks once (course once moves).room wait ((course once moves).room.look once wait)
  /-- All answers come of such looks. -/
  answers : ∀ before notice after wait, (course once moves).told = before ++ notice :: after →
    notice.answers? = some wait → ∃ early, early ++ [.look wait] <+: moves ∧
      (course once early).told = before ∧ wait ∈ (course once early).room.waits ∧
      ((course once early).room.look once wait).told = [notice]
  /-- A latch that lets somebody through has not been lowered since it was raised. -/
  raised : ∀ before wait index after,
    (course once moves).told = before ++ .letThrough wait index :: after →
      ∃ name, wait.awaited[index]? = some name ∧ RaisedSince once name before

theorem orderly (once : κ → Bool) (moves : List (Move κ)) : Orderly once moves where
  looks wait hwait := by
    obtain ⟨hentered, hclock⟩ := entered_in_time moves wait hwait
    exact ⟨hentered, WaitingRoom.looks once hclock⟩
  answers _ _ _ _ htold hanswer := exists_look_of_answer htold hanswer
  raised _ _ _ _ htold := raisedSince_of_letThrough htold

end WaitingRoom

end LocalPlay.Timing
