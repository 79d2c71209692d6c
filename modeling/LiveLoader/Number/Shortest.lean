import LiveLoader.Number.Binary

/-!
# Shortest decimals

The fewest decimal digits that still denote a double, and of those the nearest to it. The reals that
round to a double form an interval around it, whose ends belong to it when its mantissa is even; the
search tries one grid of decimals after the other, coarsest first, and looks at the two neighbours
of the value on it.
-/

namespace LiveLoader.Number

/-- `digits · 10 ^ exponent`. -/
structure Decimal where
  digits : Nat
  exponent : Int
  deriving DecidableEq, Repr

/-- The interval of a double over one denominator: the value and the two ends. -/
structure Interval where
  low : Nat
  value : Nat
  high : Nat
  den : Nat
  closed : Bool

/-- The reals that round to `m · 2 ^ e`; below a power of two the lower half is narrower. -/
def interval (m : Nat) (e : Int) : Interval :=
  let narrow := m == twoTo 52 && e > -1074
  let scale (n : Nat) : Nat := if 0 ≤ e then n * twoTo e.toNat else n
  let den := if 0 ≤ e then 4 else 4 * twoTo (-e).toNat
  ⟨scale (4 * m - if narrow then 1 else 2), scale (4 * m), scale (4 * m + 2), den, m % 2 == 0⟩

def Interval.holds (i : Interval) (n : Nat) (k : Int) : Bool :=
  let x := if 0 ≤ k then n * tenTo k.toNat * i.den else n * i.den
  let unit := if 0 ≤ k then 1 else tenTo (-k).toNat
  let low := i.low * unit
  let high := i.high * unit
  if i.closed then low ≤ x && x ≤ high else low < x && x < high

/-- The nearest point of the grid `10 ^ k` inside the interval, if one lies there. -/
def Interval.onGrid? (i : Interval) (k : Int) : Option Nat :=
  let num := if 0 ≤ k then i.value else i.value * tenTo (-k).toNat
  let den := if 0 ≤ k then i.den * tenTo k.toNat else i.den
  let n := num / den
  let r := num % den
  match i.holds n k && n > 0, i.holds (n + 1) k with
  | true, true => some (if 2 * r < den || (2 * r == den && n % 2 == 0) then n else n + 1)
  | true, false => some n
  | false, true => some (n + 1)
  | false, false => none

/-- Tries the grids `10 ^ k`, `10 ^ (k - 1)`, ... -/
def Interval.search (i : Interval) : Nat → Int → Decimal
  | 0, k => ⟨(i.onGrid? k).getD 0, k⟩
  | n + 1, k =>
    match i.onGrid? k with
    | some d => ⟨d, k⟩
    | none => i.search n (k - 1)

/-- The exponent of the highest decimal digit is at most this. -/
def decimalMagnitude (m : Nat) (e : Int) : Int := ((m.log2 : Int) + 1 + e) * 30103 / 100000 + 1

def shortest (m : Nat) (e : Int) : Decimal :=
  let d := (interval m e).search 20 (decimalMagnitude m e)
  dropZeros 20 d
where
  dropZeros : Nat → Decimal → Decimal
    | 0, d => d
    | n + 1, d => if d.digits % 10 == 0 && d.digits > 0 then dropZeros n ⟨d.digits / 10, d.exponent + 1⟩ else d

def Decimal.digitChars (d : Decimal) : List Char := Nat.toDigits 10 d.digits

/-- Positional up to 21 digits before the point and six zeros behind it, scientific beyond. -/
def Decimal.text (d : Decimal) : List Char :=
  let ds := d.digitChars
  let k : Int := ds.length
  let n : Int := k + d.exponent
  if k ≤ n && n ≤ 21 then ds ++ List.replicate (n - k).toNat '0'
  else if 0 < n && n ≤ 21 then ds.take n.toNat ++ '.' :: ds.drop n.toNat
  else if -6 < n && n ≤ 0 then '0' :: '.' :: List.replicate (-n).toNat '0' ++ ds
  else
    let e := n - 1
    let sign := if e < 0 then '-' else '+'
    let exponent := 'e' :: sign :: Nat.toDigits 10 e.natAbs
    match ds with
    | [c] => c :: exponent
    | c :: r => c :: '.' :: r ++ exponent
    | [] => exponent

def unsignedText (x : Float) : List Char :=
  if x.isNaN then "NaN".toList
  else match dyadic? x with
    | none => "Infinity".toList
    | some d => if d.mantissa = 0 then ['0'] else (shortest d.mantissa d.exponent).text

def decimalText (x : Float) : List Char :=
  match dyadic? x with
  | some d => if d.negative && d.mantissa ≠ 0 then '-' :: unsignedText x else unsignedText x
  | none => if x < 0 then '-' :: unsignedText x else unsignedText x

end LiveLoader.Number
