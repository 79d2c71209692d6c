/-!
# Binary numbers

The exact value of a double: a finite one is a whole number times a power of two. Integers are taken
from doubles and put back through this form.
-/

namespace LiveLoader.Number

def twoTo (n : Nat) : Nat := Nat.pow 2 n
def tenTo (n : Nat) : Nat := Nat.pow 10 n

/-- `sign · mantissa · 2 ^ exponent`. -/
structure Dyadic where
  negative : Bool
  mantissa : Nat
  exponent : Int
  deriving DecidableEq, Repr

/-- The exact value; infinities and what is no number have none. -/
def dyadic? (x : Float) : Option Dyadic :=
  let bits : Nat := x.toBits.toNat
  let fraction : Nat := bits % twoTo 52
  let scale : Nat := bits / twoTo 52 % twoTo 11
  let negative := bits / twoTo 63 == 1
  if scale == 2047 then none
  else if scale == 0 then some ⟨negative, fraction, -1074⟩
  else some ⟨negative, fraction + twoTo 52, (scale : Int) - 1075⟩

def Dyadic.truncate (d : Dyadic) : Int :=
  let n : Nat :=
    if 0 ≤ d.exponent then d.mantissa * twoTo d.exponent.toNat
    else d.mantissa / twoTo (-d.exponent).toNat
  if d.negative then -(n : Int) else n

def Dyadic.isWhole (d : Dyadic) : Bool :=
  0 ≤ d.exponent || d.mantissa % twoTo (-d.exponent).toNat == 0

/-- Modulo 2 ^ 32, in the range of signed words; what has no exact value counts as zero. -/
def toInt32 (x : Float) : Int32 :=
  match dyadic? x with
  | none => 0
  | some d => Int32.ofInt (d.truncate.bmod (twoTo 32))

def ofInt (n : Int) : Float :=
  if n < 0 then -(Float.ofNat n.natAbs) else Float.ofNat n.natAbs

/-- The remainder of exact division, with the sign of the dividend. -/
def remainder (x y : Float) : Float :=
  match dyadic? x, dyadic? y with
  | some a, some b =>
    if b.mantissa = 0 then 0.0 / 0.0
    else
      let e := min a.exponent b.exponent
      let m := a.mantissa * twoTo (a.exponent - e).toNat
      let n := b.mantissa * twoTo (b.exponent - e).toNat
      let r := Float.scaleB (Float.ofNat (m % n)) e
      if a.negative then -r else r
  | some _, none => if y.isNaN then y else x
  | none, _ => 0.0 / 0.0

end LiveLoader.Number
