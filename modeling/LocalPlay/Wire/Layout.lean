import LocalPlay.Bytes
import LocalPlay.Wire.Error

/-!
# Fixed layouts

A layout says where the parts of a message stand on the wire. It is built from four leaves, numbers,
flags, choices from a list of known values and blocks of raw bytes, put one after the other by
`pair` and renamed by `map`. Beside the two directions a layout lists its slots: how wide each part
is and which bytes an encoder would ever write there. A flag reads any byte but is written as 0 or
1, a choice reads unknown values as a default, padding is written as zeros; every other slot reads
and writes all byte patterns alike.

`decode` is total and reads zeros past the end. `read` is what callers use: it refuses input shorter
than the layout.
-/

namespace LocalPlay.Wire

/-- Which bytes an encoder writes into a slot. -/
inductive SlotRule where
  /-- Any bytes. -/
  | free
  /-- One byte, 0 or 1. -/
  | flag
  /-- A number among the known ones. -/
  | known (values : List Nat)
  /-- Zeros. -/
  | blank
  deriving DecidableEq, Repr

structure Slot where
  width : Nat
  rule : SlotRule
  deriving DecidableEq, Repr

/-- The bytes could have been written into this slot. -/
def Slot.Canonical (slot : Slot) (bytes : Bytes) : Prop :=
  match slot.rule with
  | .free => True
  | .flag => bytes.ofLittleEndian ≤ 1
  | .known values => bytes.ofLittleEndian ∈ values
  | .blank => ∀ byte ∈ bytes, byte = 0

instance : (slot : Slot) → (bytes : Bytes) → Decidable (slot.Canonical bytes)
  | ⟨_, .free⟩, _ => .isTrue trivial
  | ⟨_, .flag⟩, bytes => Nat.decLe bytes.ofLittleEndian 1
  | ⟨_, .known values⟩, bytes => List.instDecidableMemOfLawfulBEq bytes.ofLittleEndian values
  | ⟨_, .blank⟩, bytes => List.decidableBAll (· = 0) bytes

structure Layout (α : Type) where
  slots : List Slot
  encode : α → Bytes
  decode : Bytes → α

namespace Layout

variable {α β : Type}

def size (layout : Layout α) : Nat :=
  layout.slots.foldr (·.width + ·) 0

/-- Reads the fixed part at the start of `bytes`; what follows it is ignored. -/
def read (layout : Layout α) (bytes : Bytes) : Except WireError α :=
  if bytes.length < layout.size then
    .error (.tooShort layout.size bytes.length)
  else
    .ok (layout.decode bytes)

/-- Reads the fixed part and hands back what follows it. -/
def readWithTail (layout : Layout α) (bytes : Bytes) : Except WireError (α × Bytes) :=
  (layout.read bytes).map fun value => (value, bytes.drop layout.size)

def u8 : Layout UInt8 where
  slots := [⟨1, .free⟩]
  encode value := [value]
  decode bytes := bytes.headD 0

def u16 : Layout UInt16 where
  slots := [⟨2, .free⟩]
  encode value := Bytes.littleEndian 2 value.toNat
  decode bytes := UInt16.ofNat (Bytes.ofLittleEndian (bytes.take 2))

def u32 : Layout UInt32 where
  slots := [⟨4, .free⟩]
  encode value := Bytes.littleEndian 4 value.toNat
  decode bytes := UInt32.ofNat (Bytes.ofLittleEndian (bytes.take 4))

/-- A signed number in two's complement. -/
def i32 : Layout Int32 where
  slots := [⟨4, .free⟩]
  encode value := Bytes.littleEndian 4 value.toUInt32.toNat
  decode bytes := (UInt32.ofNat (Bytes.ofLittleEndian (bytes.take 4))).toInt32

/-- A truth value in one byte; every byte but 0 reads as true. -/
def flag : Layout Bool where
  slots := [⟨1, .flag⟩]
  encode value := [if value then 1 else 0]
  decode bytes := bytes.headD 0 != 0

/-- A value written as one of the numbers in `known`; `ofNumber` says how the others read. -/
def choice (width : Nat) (known : List Nat) (toNumber : α → Nat) (ofNumber : Nat → α) :
    Layout α where
  slots := [⟨width, .known known⟩]
  encode value := Bytes.littleEndian width (toNumber value)
  decode bytes := ofNumber (Bytes.ofLittleEndian (bytes.take width))

def block (n : Nat) : Layout (Block n) where
  slots := [⟨n, .free⟩]
  encode value := value.bytes
  decode bytes := Block.ofBytes bytes

def padding (width : Nat) : Layout Unit where
  slots := [⟨width, .blank⟩]
  encode _ := List.replicate width 0
  decode _ := ()

def pair (first : Layout α) (second : Layout β) : Layout (α × β) where
  slots := first.slots ++ second.slots
  encode value := first.encode value.1 ++ second.encode value.2
  decode bytes := (first.decode bytes, second.decode (bytes.drop first.size))

/-- The same bytes, read as another type. -/
def map (layout : Layout α) (build : α → β) (split : β → α) : Layout β where
  slots := layout.slots
  encode value := layout.encode (split value)
  decode bytes := build (layout.decode bytes)

end Layout

end LocalPlay.Wire
