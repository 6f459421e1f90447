/-!
# Worker loops

A worker takes events from a queue and does the work they lead to, one after the other. It can be
asked to stop at any time. Work that has begun is completed even then, but no further event is
taken. However its loop ends, by request or by an error, the worker cleans up once, and after that
nobody can reach it any more; only a worker that crashes leaves without cleaning up.

The loop knows neither what work is nor how long it takes. `turn` is what the loop does by itself,
`finish` is what it is told when the work at hand is done.
-/

namespace LocalPlay.Worker

/-- What an event leads to. -/
inductive Response (ω ε : Type) where
  | work (task : ω)
  | nothing
  | failure (error : ε)
  | crash

/-- What a worker is for: its response to events, and its error when there will be no more of them.
-/
structure Duty (α ω ε : Type) where
  respond : α → Response ω ε
  exhausted : ε

/-- How a loop ended. -/
inductive Ending (ε : Type) where
  | stopped
  | failed (error : ε)
  | crashed
  deriving DecidableEq, Repr

/-- What happens in a loop. -/
inductive Notice (α : Type) where
  | took (event : α)
  /-- The work at hand is done, or has failed. -/
  | finished
  | cleaned
  deriving DecidableEq, Repr

/-- Who holds a worker and can stop it. -/
inductive Holder where
  | holding
  /-- Asked the worker to stop and waits for the end of its loop. -/
  | waiting
  | gone
  deriving DecidableEq, Repr

structure Loop (α ω ε : Type) where
  /-- Events that may wait at most. -/
  capacity : Nat
  queue : List α := []
  /-- More events may come. -/
  fed : Bool := true
  /-- The work at hand. -/
  work : Option ω := none
  stopAsked : Bool := false
  holder : Holder := .holding
  ending : Option (Ending ε) := none
  cleaned : Bool := false

namespace Loop

variable {α ω ε : Type}

/-- Offers an event; false if the loop does not take it any more, or not now. -/
def offer (l : Loop α ω ε) (event : α) : Bool × Loop α ω ε :=
  if l.ending.isNone ∧ l.fed ∧ l.queue.length < l.capacity then
    (true, { l with queue := l.queue ++ [event] })
  else
    (false, l)

/-- The holder asks the worker to stop and waits for it. A worker can be stopped once. -/
def stop (l : Loop α ω ε) : Loop α ω ε :=
  if l.holder = .holding then { l with stopAsked := true, holder := .waiting } else l

/-- The holder leaves: the worker is to stop, but nobody waits for it. -/
def drop (l : Loop α ω ε) : Loop α ω ε :=
  if l.holder = .holding then { l with stopAsked := true, holder := .gone } else l

/-- What the holder that waits for the end of the loop learns, once it has ended. -/
def report (l : Loop α ω ε) : Option (Ending ε) × Loop α ω ε :=
  if l.holder = .waiting ∧ l.ending.isSome then (l.ending, { l with holder := .gone }) else (none, l)

/-- There will be no more events. -/
def starve (l : Loop α ω ε) : Loop α ω ε :=
  { l with fed := false }

/-- The loop is over, in good order. -/
def conclude (l : Loop α ω ε) (ending : Ending ε) : Loop α ω ε × List (Notice α) :=
  ({ l with queue := [], work := none, ending := some ending, cleaned := true }, [.cleaned])

/-- Takes an event. -/
def take (duty : Duty α ω ε) (l : Loop α ω ε) (event : α) (rest : List α) :
    Loop α ω ε × List (Notice α) :=
  match duty.respond event with
  | .work task => ({ l with queue := rest, work := some task }, [.took event])
  | .nothing => ({ l with queue := rest }, [.took event])
  | .failure error =>
    let (l, told) := l.conclude (.failed error)
    (l, .took event :: told)
  | .crash => ({ l with queue := [], ending := some .crashed }, [.took event])

/-- What the loop does between works. A request to stop goes before events. -/
def turn (duty : Duty α ω ε) (l : Loop α ω ε) : Option (Loop α ω ε × List (Notice α)) :=
  if l.ending.isSome ∨ l.work.isSome then
    none
  else if l.stopAsked then
    some (l.conclude .stopped)
  else
    match l.queue with
    | event :: rest => some (l.take duty event rest)
    | [] => if l.fed then none else some (l.conclude (.failed duty.exhausted))

/-- The work at hand is done. -/
def finish (l : Loop α ω ε) (result : Except ε Unit) : Loop α ω ε × List (Notice α) :=
  match l.work, result with
  | none, _ => (l, [])
  | some _, .ok () => ({ l with work := none }, [.finished])
  | some _, .error error =>
    let (l, told) := l.conclude (.failed error)
    (l, .finished :: told)

end Loop

end LocalPlay.Worker
