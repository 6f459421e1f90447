import LocalPlay.Wire.Layout

/-!
# Enumerated values of the protocol

Each enumeration has a number on the wire and a name. Numbers outside the list are not errors: a
family nobody knows is no family, an error nobody knows is unknown, a reason nobody knows is no
reason, and a policy nobody knows lets everyone in.
-/

namespace LocalPlay.Wire

/-- The kind of address a 16 byte address field holds. -/
inductive AddressFamily where
  | unspecified
  | v4
  | v6
  deriving DecidableEq, Repr, Inhabited

namespace AddressFamily

def number : AddressFamily → Nat
  | unspecified => 0
  | v4 => 2
  | v6 => 23

def ofNumber : Nat → AddressFamily
  | 2 => v4
  | 23 => v6
  | _ => unspecified

def name : AddressFamily → String
  | unspecified => "Unspecified"
  | v4 => "InterNetwork"
  | v6 => "InterNetworkV6"

/-- How many bytes of the 16 byte field carry the address. -/
def addressLength : AddressFamily → Nat
  | unspecified => 0
  | v4 => 4
  | v6 => 16

def layout : Layout AddressFamily :=
  Layout.choice 4 [0, 2, 23] number ofNumber

end AddressFamily

/-- Errors the relay reports. -/
inductive NetworkError where
  | none
  /-- The relay could not reach the proxy hosted here. -/
  | portUnreachable
  | tooManyPlayers
  | versionTooLow
  | versionTooHigh
  | connectFailure
  | connectNotFound
  | connectTimeout
  | connectRejected
  | rejectFailed
  | unknown
  deriving DecidableEq, Repr, Inhabited

namespace NetworkError

/-- Unknown is minus one in 32 bit two's complement. -/
def number : NetworkError → Nat
  | none => 0
  | portUnreachable => 1
  | tooManyPlayers => 2
  | versionTooLow => 3
  | versionTooHigh => 4
  | connectFailure => 5
  | connectNotFound => 6
  | connectTimeout => 7
  | connectRejected => 8
  | rejectFailed => 9
  | unknown => 4294967295

def ofNumber : Nat → NetworkError
  | 0 => none
  | 1 => portUnreachable
  | 2 => tooManyPlayers
  | 3 => versionTooLow
  | 4 => versionTooHigh
  | 5 => connectFailure
  | 6 => connectNotFound
  | 7 => connectTimeout
  | 8 => connectRejected
  | 9 => rejectFailed
  | _ => unknown

def name : NetworkError → String
  | none => "None"
  | portUnreachable => "PortUnreachable"
  | tooManyPlayers => "TooManyPlayers"
  | versionTooLow => "VersionTooLow"
  | versionTooHigh => "VersionTooHigh"
  | connectFailure => "ConnectFailure"
  | connectNotFound => "ConnectNotFound"
  | connectTimeout => "ConnectTimeout"
  | connectRejected => "ConnectRejected"
  | rejectFailed => "RejectFailed"
  | unknown => "Unknown"

def layout : Layout NetworkError :=
  Layout.choice 4 [0, 1, 2, 3, 4, 5, 6, 7, 8, 9, 4294967295] number ofNumber

end NetworkError

/-- Why a node left a network. -/
inductive LeaveReason where
  | none
  | user
  | systemRequest
  | destroyedByUser
  | destroyedBySystemRequest
  | admin
  | signalLost
  deriving DecidableEq, Repr, Inhabited

namespace LeaveReason

def number : LeaveReason → Nat
  | none => 0
  | user => 1
  | systemRequest => 2
  | destroyedByUser => 3
  | destroyedBySystemRequest => 4
  | admin => 5
  | signalLost => 6

def ofNumber : Nat → LeaveReason
  | 1 => user
  | 2 => systemRequest
  | 3 => destroyedByUser
  | 4 => destroyedBySystemRequest
  | 5 => admin
  | 6 => signalLost
  | _ => none

def name : LeaveReason → String
  | none => "None"
  | user => "User"
  | systemRequest => "SystemRequest"
  | destroyedByUser => "DestroyedByUser"
  | destroyedBySystemRequest => "DestroyedBySystemRequest"
  | admin => "Admin"
  | signalLost => "SignalLost"

def layout : Layout LeaveReason :=
  Layout.choice 4 [0, 1, 2, 3, 4, 5, 6] number ofNumber

end LeaveReason

/-- Which stations may join a hosted network. -/
inductive JoinPolicy where
  | acceptAll
  | rejectAll
  | blackList
  | whiteList
  deriving DecidableEq, Repr, Inhabited

namespace JoinPolicy

def number : JoinPolicy → Nat
  | acceptAll => 0
  | rejectAll => 1
  | blackList => 2
  | whiteList => 3

def ofNumber? : Nat → Option JoinPolicy
  | 0 => some acceptAll
  | 1 => some rejectAll
  | 2 => some blackList
  | 3 => some whiteList
  | _ => none

def ofNumber (number : Nat) : JoinPolicy :=
  (ofNumber? number).getD acceptAll

def name : JoinPolicy → String
  | acceptAll => "AcceptAll"
  | rejectAll => "RejectAll"
  | blackList => "BlackList"
  | whiteList => "WhiteList"

def layout : Layout JoinPolicy :=
  Layout.choice 1 [0, 1, 2, 3] number ofNumber

end JoinPolicy

end LocalPlay.Wire
