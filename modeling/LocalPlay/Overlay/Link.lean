import LocalPlay.Net.AddressText
import LocalPlay.Net.IoError
import LocalPlay.Wire.Packet

/-!
# Links

Hosts and guests of an overlay send through a link they do not own: the socket of the session. All
they see of it is whether a packet can be sent now. `Faults` is a link by a list of what is broken:
single targets, or everything without an entry of its own.
-/

namespace LocalPlay.Overlay

open Net Wire

inductive Target where
  | relay
  | peer (endpoint : Endpoint)
  deriving DecidableEq, Inhabited

/-- Why a packet was not sent. -/
inductive SendError where
  | io (error : IoError)
  | unsendable (error : WireError)
  deriving DecidableEq

def SendError.message : SendError → String
  | io error => error.message
  | unsendable error => error.message

/-- What keeps a packet from being sent, if anything does. -/
abbrev Link := Target → Packet → Option SendError

structure Faults where
  everything : Option IoError := none
  targets : List (Target × IoError) := []
  deriving DecidableEq

namespace Faults

def at? (faults : Faults) (target : Target) : Option IoError :=
  (faults.targets.lookup target) <|> faults.everything

/-- Breaks or mends the way to one target, or to all without an entry of their own. -/
def set (faults : Faults) (target : Option Target) (error : Option IoError) : Faults :=
  match target with
  | none => { faults with everything := error }
  | some target =>
    let others := faults.targets.filter (·.1 ≠ target)
    { faults with targets := (error.toList.map (target, ·)) ++ others }

def link (faults : Faults) : Link := fun target _ =>
  (faults.at? target).map .io

end Faults

/-- Why a host turned an applicant away, or a guest could not reach its host. -/
inductive ProxyError where
  | noMatchingToken
  | linkDown (error : SendError)
  deriving DecidableEq

def ProxyError.message : ProxyError → String
  | noMatchingToken => "No matching proxy token"
  | linkDown error => s!"Link down: {error.message}"

end LocalPlay.Overlay
