/-
Numbers in double precision, as the sixty-four bits that a processor keeps.

To a `Float` all that is no number is one and the same; in bits it has a
sign, too, and an order by bits puts it in front of all numbers or behind
them. So a number that may come from outside is kept as bits. Operations
are those of `Float`, and what they make of what is no number is what an
x86-64 processor makes of it: an operation without a result gives what is
no number with a minus, and one that is given what is no number passes it
on, the first before the second.
-/
namespace SourceDigest

/-- A number in double precision, or what is no number. -/
structure Double where
  bits : UInt64
deriving DecidableEq, Inhabited

namespace Double

/-- The number that a `Float` is; one that is no number has no minus. -/
def ofFloat (x : Float) : Double := ⟨x.toBits⟩

/-- The value without the sign and the bits of what is no number. -/
def toFloat (x : Double) : Float := Float.ofBits x.bits

instance : Coe Float Double := ⟨ofFloat⟩

instance : Coe Double Float := ⟨toFloat⟩

def ofNat (n : Nat) : Double := ofFloat n.toFloat

def ofInt (n : Int) : Double := ofFloat (Float.ofInt n)

instance : OfScientific Double :=
  ⟨fun digits negative exponent =>
    ofFloat (OfScientific.ofScientific digits negative exponent)⟩

-- ======================================================================== bits

/-- How many numbers have no minus. -/
def signWeight : Nat := UInt64.size / 2

/-- Whether the bit of the sign is set. -/
def isNegative (x : Double) : Bool := signWeight ≤ x.bits.toNat

/-- The bits but for the sign. -/
def size (x : Double) : Nat := x.bits.toNat % signWeight

/-- The bits of infinity; more than these are no number. -/
def infinityBits : Nat := 0x7FF0000000000000

def isNaN (x : Double) : Bool := infinityBits < x.size

def isFinite (x : Double) : Bool := x.size < infinityBits

def isInf (x : Double) : Bool := x.size = infinityBits

def infinity : Double := ⟨0x7FF0000000000000⟩

/-- What is no number, without a minus. -/
def nan : Double := ⟨0x7FF8000000000000⟩

/-- What an operation without a result gives. -/
def noResult : Double := ⟨0xFFF8000000000000⟩

-- ================================================================== operations

instance : Neg Double := ⟨fun x => ⟨x.bits ^^^ 0x8000000000000000⟩⟩

/-- What is no number as an operation passes it on. -/
def quiet (x : Double) : Double := ⟨x.bits ||| 0x0008000000000000⟩

/-- An operation on numbers, and on what is none. -/
def combine (op : Float → Float → Float) (x y : Double) : Double :=
  if x.isNaN then x.quiet
  else if y.isNaN then y.quiet
  else
    let z := op x.toFloat y.toFloat
    if z.isNaN then noResult else ofFloat z

instance : Add Double := ⟨combine (· + ·)⟩

instance : Sub Double := ⟨combine (· - ·)⟩

instance : Mul Double := ⟨combine (· * ·)⟩

instance : Div Double := ⟨combine (· / ·)⟩

-- ====================================================================== orders

/-- What is no number is neither below nor above anything. -/
instance : LT Double := ⟨fun x y => x.toFloat < y.toFloat⟩

instance : LE Double := ⟨fun x y => x.toFloat ≤ y.toFloat⟩

instance (x y : Double) : Decidable (x < y) :=
  inferInstanceAs (Decidable (x.toFloat < y.toFloat))

instance (x y : Double) : Decidable (x ≤ y) :=
  inferInstanceAs (Decidable (x.toFloat ≤ y.toFloat))

/-- The place of a number in the order by bits, in which every two are told
apart: numbers as their values say, a zero with a minus before one without,
and what is no number on the outside, by its sign. -/
def rank (x : Double) : Int :=
  if x.isNegative then signWeight - 1 - x.bits.toNat else x.bits.toNat

end Double

end SourceDigest
