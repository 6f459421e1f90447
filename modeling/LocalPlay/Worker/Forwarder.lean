import LocalPlay.Text.Natural
import LocalPlay.Timing.Schedule
import LocalPlay.Worker.Loop

/-!
# Forwarding workers

A forwarding worker passes messages on from its input to an output of limited room, some of them
after a while. A message is work: while it waits for its time, or for room in the output, the worker
takes no other. Some messages are for the worker itself.
-/

namespace LocalPlay.Worker

open Timing

/-- A message that is passed on no earlier than at its time. -/
structure Delivery where
  message : String
  due : Nat
  deriving DecidableEq, Repr

structure Forwarder where
  clock : Nat := 0
  loop : Loop String Delivery String := { capacity := 4096 }
  output : List String := []
  /-- Messages that have room in the output. -/
  room : Nat := 4096
  /-- Someone may still read the output. -/
  outputOpen : Bool := true

namespace Forwarder

def beginsWith (start text : String) : Bool :=
  start.toList.isPrefixOf text.toList

/-- How long a message asks to be held back: `slow:` and a number of milliseconds. -/
def delay (message : String) : Nat :=
  if beginsWith "slow:" message then
    (Text.natural? UInt64.size (String.ofList (message.toList.drop 5))).getD 0
  else
    0

/-- Messages are passed on, apart from `panic`, `skip`, and those that start with `fail`. -/
def duty (now : Nat) : Duty String Delivery String where
  respond message :=
    if message = "panic" then .crash
    else if message = "skip" then .nothing
    else if beginsWith "fail" message then .failure message
    else .work { message, due := now + delay message }
  exhausted := "input closed"

/-- Passes on the message at hand, or lets the loop do what it does. -/
def turn (f : Forwarder) : Option (Forwarder × List (Notice String)) :=
  match f.loop.work with
  | some delivery =>
    if f.clock < delivery.due then
      none
    else if !f.outputOpen then
      let (loop, told) := f.loop.finish (.error "output closed")
      some ({ f with loop }, told)
    else if f.output.length < f.room then
      let (loop, told) := f.loop.finish (.ok ())
      some ({ f with loop, output := f.output ++ [delivery.message] }, told)
    else
      none
  | none => (f.loop.turn (duty f.clock)).map fun (loop, told) => ({ f with loop }, told)

def due? (f : Forwarder) : Option Nat :=
  f.loop.work.bind fun delivery => if f.clock < delivery.due then some delivery.due else none

/-- Each message is taken and passed on, and then the loop ends. -/
def machine : Machine Forwarder (Notice String) where
  turn := turn
  turns f := 2 * f.loop.queue.length + 3
  due? := due?
  stops f := f.loop.queue.length + 2
  reach time f := { f with clock := time }

/-- Reads the output until it stays empty; the worker goes on as soon as there is room. -/
def readWithin : Nat → Forwarder → List String × Forwarder
  | 0, f => ([], f)
  | rounds + 1, f =>
    if f.output = [] then
      ([], f)
    else
      let (more, next) := readWithin rounds (machine.settle { f with output := [] }).1
      (f.output ++ more, next)

/-- Every round has at least one of the messages that are in the worker or in its output. -/
def read (f : Forwarder) : List String × Forwarder :=
  readWithin (f.output.length + f.loop.queue.length + 2) f

/-- What others do to a worker and its queues. -/
inductive Request where
  | stop
  | drop
  | closeInput
  | closeOutput
  | wait (millis : Nat)

/-- The worker does not see what comes with a message until all of it is done, but it has a turn
before time passes. -/
def apply (f : Forwarder) : Request → Forwarder
  | .stop => { f with loop := f.loop.stop }
  | .drop => { f with loop := f.loop.drop }
  | .closeInput => { f with loop := f.loop.starve }
  | .closeOutput => { f with output := [], outputOpen := false }
  | .wait millis => (machine.advance (f.clock + millis) (machine.settle f).1).1

/-- Offers messages one after the other and counts those that are not taken. -/
def offer (f : Forwarder) : List String → Nat × Forwarder
  | [] => (0, f)
  | message :: rest =>
    let (taken, loop) := f.loop.offer message
    let (refused, f) := { f with loop }.offer rest
    (if taken then refused else refused + 1, f)

/-- What can be seen of a worker once it has settled. -/
structure Report where
  refused : Nat
  output : List String
  /-- Learned by whoever waits for the worker to stop. -/
  ending : Option (Ending String)

/-- Offers messages, does what is requested, and lets the worker settle; the output is read or left.
-/
def step (f : Forwarder) (messages : List String) (request : Option Request) (reading : Bool) :
    Report × Forwarder :=
  let (refused, f) := f.offer messages
  let f := match request with
    | none => f
    | some request => f.apply request
  let f := (machine.settle f).1
  let (output, f) := if reading then f.read else ([], f)
  let (ending, loop) := f.loop.report
  ({ refused, output, ending }, { f with loop })

end Forwarder

end LocalPlay.Worker
