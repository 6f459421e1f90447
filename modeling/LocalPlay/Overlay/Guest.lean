import LocalPlay.Overlay.Link
import LocalPlay.Overlay.Traffic
import LocalPlay.Timing.Schedule

/-!
# Guests of a proxy

A node that joined a network whose owner hosts a proxy is a guest there. It presents the token the
relay gave it, is assigned an address, confirms the address back, and sends its traffic to the host.
Once it has an address it has one for good; a later assignment replaces it.

A `Visit` runs one guest on its own, with a clock, the state of its link, and callers that wait for
the address.
-/

namespace LocalPlay.Overlay

open Net Wire Timing

structure Guest where
  /-- Where the host is. -/
  endpoint : Endpoint
  config : Option OverlayConfig := none
  deriving DecidableEq

namespace Guest

def target (g : Guest) : Target := .peer g.endpoint

/-- What a send comes to. -/
def outcome (g : Guest) (link : Link) (packet : Packet) : Except ProxyError Unit :=
  match link g.target packet with
  | none => .ok ()
  | some error => .error (.linkDown error)

/-- The address is kept even if it cannot be confirmed. -/
def assign (g : Guest) (config : OverlayConfig) : Guest :=
  { g with config := some config }

end Guest

/-- Someone who waits for a guest's address. -/
structure Waiter where
  id : Nat
  deadline : Nat
  deriving DecidableEq

structure Visit where
  clock : Nat := 0
  faults : Faults := {}
  guest : Guest
  waiters : List Waiter := []
  ready : List Nat := []
  /-- Calls so far. -/
  calls : Nat := 0

namespace Visit

inductive Request where
  | authenticate (offer : ProxyOffer)
  | assign (config : OverlayConfig)
  | send (traffic : Traffic)
  /-- Wait for an address, for at most so many milliseconds. -/
  | await (timeout : Nat)
  | setFault (target : Option Target) (error : Option IoError)

inductive Reply where
  | nothing
  | outcome (result : Except ProxyError Unit)
  | call (id : Nat)

inductive Notice where
  | posted (target : Target) (packet : Packet) (refusal : Option SendError)
  | answered (call : Nat) (config : Option OverlayConfig)

def link (v : Visit) : Link := v.faults.link

def post (v : Visit) (packet : Packet) : Reply × List Notice :=
  (.outcome (v.guest.outcome v.link packet),
    [.posted v.guest.target packet (v.link v.guest.target packet)])

def request (v : Visit) : Request → Reply × Visit × List Notice
  | .authenticate offer =>
    let (reply, notices) := v.post (.proxyOffer offer)
    (reply, v, notices)
  | .assign config =>
    let (reply, notices) := v.post (.overlayConfig config)
    (reply, { v with guest := v.guest.assign config, ready := v.waiters.map (·.id) }, notices)
  | .send traffic =>
    let (reply, notices) := v.post traffic.toPacket
    (reply, v, notices)
  | .await timeout =>
    let waiter : Waiter := ⟨v.calls, v.clock + timeout⟩
    (.call v.calls,
      { v with waiters := v.waiters ++ [waiter], ready := v.ready ++ [v.calls], calls := v.calls + 1 }, [])
  | .setFault target error => (.nothing, { v with faults := v.faults.set target error }, [])

/-- The waiter who has been ready longest looks for the address. -/
def turn (v : Visit) : Option (Visit × List Notice) :=
  match v.ready with
  | [] => none
  | id :: ready =>
    let v := { v with ready }
    match v.waiters.find? (·.id == id) with
    | none => some (v, [])
    | some waiter =>
      if v.guest.config.isSome ∨ waiter.deadline ≤ v.clock then
        some ({ v with waiters := v.waiters.filter (·.id ≠ id) }, [.answered id v.guest.config])
      else
        some (v, [])

def machine : Machine Visit Notice where
  turn := turn
  turns v := v.ready.length + 1
  due? v := (v.waiters.map (·.deadline)).min?
  stops v := v.waiters.length
  reach time v :=
    { v with clock := time, ready := v.ready ++ (v.waiters.filter (·.deadline ≤ time)).map (·.id) }

end Visit

end LocalPlay.Overlay
