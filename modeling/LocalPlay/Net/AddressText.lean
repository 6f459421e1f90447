import LocalPlay.Net.Ip
import LocalPlay.Text.Hex

/-!
# The text of addresses

IPv4 addresses are four decimal numbers, without leading zeros. IPv6 addresses are eight groups of
hexadecimal digits, where one run of zero groups may be left out and the last two groups may be
written as an IPv4 address. They are printed in lowercase with the first of the longest runs of two
or more zero groups left out; only a mapped address is printed with an IPv4 tail. An endpoint is an
address and a port, with IPv6 in brackets and a scope after a percent sign if it is not zero.

Readers take the characters they understand and hand back the others. `Ip.parse?` and
`Endpoint.parse?` read a whole text and accept nothing around it.
-/

namespace LocalPlay.Net

/-! ## Printing -/

namespace Ip

/-- Octets with dots between them. -/
def dotted (octets : Bytes) : String :=
  ".".intercalate (octets.map fun octet => toString octet.toNat)

/-- Sixteen bytes as eight numbers. -/
def groups : Bytes → List Nat
  | high :: low :: rest => (high.toNat * 256 + low.toNat) :: groups rest
  | _ => []

/-- Length of the run of zeros at the start. -/
def zeroRun (groups : List Nat) : Nat :=
  (groups.takeWhile (· == 0)).length

/-- Where the first of the longest runs of zeros starts and how long it is; `(0, 0)` without zeros.
-/
def longestZeroRun (groups : List Nat) : Nat × Nat :=
  (List.range groups.length).foldl
    (fun best start =>
      let length := zeroRun (groups.drop start)
      if best.2 < length then (start, length) else best)
    (0, 0)

def groupText (groups : List Nat) : String :=
  ":".intercalate (groups.map (Text.hexDigits 1))

def text : Ip → String
  | v4 octets => dotted octets.bytes
  | v6 octets =>
    match mapped? (v6 octets) with
    | some plain => "::ffff:" ++ dotted plain.bytes
    | none =>
      let groups := groups octets.bytes
      let (start, length) := longestZeroRun groups
      if 1 < length then
        groupText (groups.take start) ++ "::" ++ groupText (groups.drop (start + length))
      else
        groupText groups

end Ip

namespace Endpoint

def text (e : Endpoint) : String :=
  match e.ip with
  | .v4 _ => s!"{e.ip.text}:{e.port}"
  | .v6 _ =>
    let scope := if e.scope = 0 then "" else s!"%{e.scope}"
    s!"[{e.ip.text}{scope}]:{e.port}"

end Endpoint

/-! ## Reading -/

/-- Takes a value from the start of a text and hands back the rest. -/
abbrev Reader (α : Type) := List Char → Option (α × List Char)

namespace Reader

/-- A decimal digit's value. -/
def decimalValue? (c : Char) : Option Nat :=
  if c.isDigit then some (c.toNat - '0'.toNat) else none

/-- A number below `limit` in the given base, with at most `width` digits if there is a width. -/
def number (base limit : Nat) (width : Option Nat) (leadingZeros : Bool) : Reader Nat := fun cs =>
  let value? := if base = 16 then Text.hexValue? else decimalValue?
  let digits := cs.takeWhile fun c => (value? c).isSome
  let value := digits.foldl (fun value c => value * base + (value? c).getD 0) 0
  if digits.isEmpty
      ∨ (width.any fun width => width < digits.length)
      ∨ (!leadingZeros ∧ digits.head? = some '0' ∧ 1 < digits.length)
      ∨ limit ≤ value then
    none
  else
    some (value, cs.drop digits.length)

/-- The character `c`. -/
def char (c : Char) : Reader Unit
  | [] => none
  | d :: rest => if d = c then some ((), rest) else none

/-- Four decimal numbers with dots between them, as bytes. -/
def octets : Reader Bytes := fun cs => do
  let octet := number 10 256 (some 3) false
  let (a, cs) ← octet cs
  let (_, cs) ← char '.' cs
  let (b, cs) ← octet cs
  let (_, cs) ← char '.' cs
  let (c, cs) ← octet cs
  let (_, cs) ← char '.' cs
  let (d, cs) ← octet cs
  return ([a, b, c, d].map UInt8.ofNat, cs)

/-- Up to `room` groups of an IPv6 address as bytes, and whether the last two were written as an
IPv4 address. Groups after the first start with a colon. -/
def groups (first : Bool) : Nat → List Char → Bytes × Bool × List Char
  | 0, cs => ([], false, cs)
  | room + 1, cs =>
    let separated {α : Type} (reader : Reader α) : Option (α × List Char) :=
      if first then reader cs else (char ':' cs).bind fun (_, cs) => reader cs
    match if 0 < room then separated octets else none with
    | some (tail, rest) => (tail, true, rest)
    | none =>
      match separated (number 16 65536 (some 4) true) with
      | none => ([], false, cs)
      | some (group, rest) =>
        let (bytes, dotted, rest) := groups false room rest
        (UInt8.ofNat (group / 256) :: UInt8.ofNat (group % 256) :: bytes, dotted, rest)

/-- Eight groups, or fewer with a double colon for the missing ones. -/
def sixteen : Reader Bytes := fun cs =>
  let (head, dotted, cs) := groups true 8 cs
  if head.length = 16 then
    some (head, cs)
  else if dotted then
    none
  else do
    let (_, cs) ← char ':' cs
    let (_, cs) ← char ':' cs
    let (tail, _, cs) := groups true (7 - head.length / 2) cs
    return (head ++ List.replicate (16 - head.length - tail.length) 0 ++ tail, cs)

def ip : Reader Ip := fun cs =>
  match octets cs with
  | some (bytes, rest) => some (.v4 (Block.ofBytes bytes), rest)
  | none => (sixteen cs).map fun (bytes, rest) => (.v6 (Block.ofBytes bytes), rest)

def port : Reader UInt16 := fun cs => do
  let (_, cs) ← char ':' cs
  let (port, cs) ← number 10 65536 none true cs
  return (UInt16.ofNat port, cs)

/-- A percent sign and a number; without one the scope is zero. -/
def scope (cs : List Char) : UInt32 × List Char :=
  match (char '%' cs).bind fun (_, cs) => number 10 4294967296 none true cs with
  | some (scope, rest) => (UInt32.ofNat scope, rest)
  | none => (0, cs)

def endpointV4 : Reader Endpoint := fun cs => do
  let (bytes, cs) ← octets cs
  let (port, cs) ← port cs
  return ({ ip := .v4 (Block.ofBytes bytes), port }, cs)

def endpointV6 : Reader Endpoint := fun cs => do
  let (_, cs) ← char '[' cs
  let (bytes, cs) ← sixteen cs
  let (scope, cs) := scope cs
  let (_, cs) ← char ']' cs
  let (port, cs) ← port cs
  return ({ ip := .v6 (Block.ofBytes bytes), port, scope }, cs)

/-- Reads a text to its end. -/
def whole {α : Type} (reader : Reader α) (text : String) : Option α :=
  match reader text.toList with
  | some (value, []) => some value
  | _ => none

end Reader

def Ip.parse? (text : String) : Option Ip :=
  Reader.ip.whole text

def Endpoint.parse? (text : String) : Option Endpoint :=
  Reader.whole (fun cs => Reader.endpointV4 cs <|> Reader.endpointV6 cs) text

end LocalPlay.Net
