/-!
# Bytes and fixed size fields

A message field of a fixed size is a `Block n`: exactly `n` bytes. Text of unknown length enters a
field through `Block.ofBytes`, which cuts what does not fit and fills the rest with zeros;
`beforeNul` takes the zeros off again. Numbers travel least significant byte first; `littleEndian`
and `ofLittleEndian` go through `Nat`, so every word size shares one pair.
-/

namespace LocalPlay

abbrev Bytes := List UInt8

namespace Bytes

/-- The first `n` bytes, followed by zeros where fewer were given. -/
def fit (n : Nat) (bytes : Bytes) : Bytes :=
  let kept := bytes.take n
  kept ++ List.replicate (n - kept.length) 0

theorem length_fit (n : Nat) (bytes : Bytes) : (fit n bytes).length = n := by
  simp only [fit, List.length_append, List.length_take, List.length_replicate]
  omega

/-- The bytes of a zero padded field without the padding: all before the first zero. -/
def beforeNul (bytes : Bytes) : Bytes :=
  bytes.takeWhile (· != 0)

/-- The `width` bytes of `number`, least significant first; higher bits are dropped. -/
def littleEndian : Nat → Nat → Bytes
  | 0, _ => []
  | width + 1, number => UInt8.ofNat (number % 256) :: littleEndian width (number / 256)

/-- The number whose bytes, least significant first, are given. -/
def ofLittleEndian : Bytes → Nat
  | [] => 0
  | byte :: rest => byte.toNat + 256 * ofLittleEndian rest

@[simp] theorem length_littleEndian (width number : Nat) :
    (littleEndian width number).length = width := by
  induction width generalizing number with
  | zero => rfl
  | succ width ih => simp [littleEndian, ih]

end Bytes

/-- A field of exactly `n` bytes. -/
structure Block (n : Nat) where
  bytes : Bytes
  length_bytes : bytes.length = n
  deriving DecidableEq

namespace Block

/-- Pads with zeros, or cuts, to the size of the field. -/
def ofBytes {n : Nat} (bytes : Bytes) : Block n :=
  ⟨bytes.fit n, bytes.length_fit n⟩

def zero {n : Nat} : Block n :=
  ⟨List.replicate n 0, List.length_replicate⟩

instance {n : Nat} : Inhabited (Block n) := ⟨zero⟩

/-- How many of the bytes are not zero. -/
def used {n : Nat} (block : Block n) : Nat :=
  block.bytes.countP (· != 0)

@[ext] theorem ext {n : Nat} {left right : Block n} (h : left.bytes = right.bytes) : left = right := by
  cases left; cases right; cases h; rfl

end Block

end LocalPlay
