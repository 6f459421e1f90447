/-!
# Failures of sockets and files

The kinds of failure the operating system reports, by name and by text, and how a receive loop
reacts to each: it goes on, it loses the datagram and goes on, or it ends.
-/

namespace LocalPlay.Net

inductive IoError where
  | notFound
  | permissionDenied
  | connectionRefused
  | connectionReset
  | connectionAborted
  | hostUnreachable
  | networkUnreachable
  | notConnected
  | addrInUse
  | addrNotAvailable
  | networkDown
  | brokenPipe
  | alreadyExists
  | wouldBlock
  | invalidInput
  | invalidData
  | timedOut
  | writeZero
  | interrupted
  | unsupported
  | unexpectedEof
  | outOfMemory
  | other
  deriving DecidableEq, Repr, Inhabited

namespace IoError

def all : List IoError :=
  [notFound, permissionDenied, connectionRefused, connectionReset, connectionAborted,
    hostUnreachable, networkUnreachable, notConnected, addrInUse, addrNotAvailable, networkDown,
    brokenPipe, alreadyExists, wouldBlock, invalidInput, invalidData, timedOut, writeZero,
    interrupted, unsupported, unexpectedEof,
    outOfMemory, other]

def name : IoError → String
  | notFound => "NotFound"
  | permissionDenied => "PermissionDenied"
  | connectionRefused => "ConnectionRefused"
  | connectionReset => "ConnectionReset"
  | connectionAborted => "ConnectionAborted"
  | hostUnreachable => "HostUnreachable"
  | networkUnreachable => "NetworkUnreachable"
  | notConnected => "NotConnected"
  | addrInUse => "AddrInUse"
  | addrNotAvailable => "AddrNotAvailable"
  | networkDown => "NetworkDown"
  | brokenPipe => "BrokenPipe"
  | alreadyExists => "AlreadyExists"
  | wouldBlock => "WouldBlock"
  | invalidInput => "InvalidInput"
  | invalidData => "InvalidData"
  | timedOut => "TimedOut"
  | writeZero => "WriteZero"
  | interrupted => "Interrupted"
  | unsupported => "Unsupported"
  | unexpectedEof => "UnexpectedEof"
  | outOfMemory => "OutOfMemory"
  | other => "Other"

def ofName? (name : String) : Option IoError :=
  all.find? (·.name == name)

def message : IoError → String
  | notFound => "entity not found"
  | permissionDenied => "permission denied"
  | connectionRefused => "connection refused"
  | connectionReset => "connection reset"
  | connectionAborted => "connection aborted"
  | hostUnreachable => "host unreachable"
  | networkUnreachable => "network unreachable"
  | notConnected => "not connected"
  | addrInUse => "address in use"
  | addrNotAvailable => "address not available"
  | networkDown => "network down"
  | brokenPipe => "broken pipe"
  | alreadyExists => "entity already exists"
  | wouldBlock => "operation would block"
  | invalidInput => "invalid input parameter"
  | invalidData => "invalid data"
  | timedOut => "timed out"
  | writeZero => "write zero"
  | interrupted => "operation interrupted"
  | unsupported => "unsupported"
  | unexpectedEof => "unexpected end of file"
  | outOfMemory => "out of memory"
  | other => "other error"

end IoError

/-- What a failed receive means for the socket. -/
inductive Severity where
  /-- Passes by itself, like the bounce of a datagram whose target has gone. -/
  | recoverable
  /-- The socket is of no more use. -/
  | unrecoverable
  /-- This datagram is lost, the next may be fine. -/
  | datagramLost
  deriving DecidableEq, Repr

namespace Severity

def name : Severity → String
  | recoverable => "RecoverableError"
  | unrecoverable => "UnrecoverableError"
  | datagramLost => "SocketIOError"

def message : Severity → String
  | recoverable => "Recoverable socket error"
  | unrecoverable => "Unrecoverable socket error"
  | datagramLost => "Socket IO error"

end Severity

def IoError.severity : IoError → Severity
  | .brokenPipe | .notConnected => .unrecoverable
  | .permissionDenied | .invalidInput | .invalidData => .datagramLost
  | _ => .recoverable

end LocalPlay.Net
