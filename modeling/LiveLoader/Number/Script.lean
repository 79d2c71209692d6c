import LiveLoader.Number.Shortest
import LiveLoader.Text.Pieces

/-!
# Numbers in a script

How a script writes a number in the fewest characters: decimal without a leading zero, hexadecimal,
or with an exponent.
-/

namespace LiveLoader.Number

open Text

def lowerHex (n : Nat) : List Char := (Nat.toDigits 16 n)

def widest : Nat := twoTo 128 - 1

def shorter (s : List Char) (t? : Option (List Char)) : List Char :=
  match t? with
  | some t => if t.length < s.length then t else s
  | none => s

/-- A text that ends in zeros, with the zeros as exponent. -/
def zerosAsExponent (s : List Char) : List Char :=
  let zeros := (s.reverse.takeWhile (· == '0')).length
  s.take (s.length - zeros) ++ 'e' :: Nat.toDigits 10 zeros

/-- A text `.00ddd` as `ddde-n`. -/
def fractionAsExponent? (s : List Char) : Option (List Char) :=
  match s with
  | '.' :: '0' :: _ =>
    let digits := (s.drop 1).dropWhile (· == '0')
    if digits.isEmpty then none
    else some (digits ++ "e-".toList ++ Nat.toDigits 10 (s.length - 1))
  | _ => none

/-- A text `d.ddde±n` with its point moved to the end. -/
def pointAsExponent? (s : List Char) : Option (List Char) := do
  let (whole, r) ← breakOn ['.'] s
  let (point, e) ← breakOn ['e'] r
  let e : Int := match e with
    | '-' :: ds => -(Nat.ofDigitChars 10 ds 0 : Int)
    | ds => (Nat.ofDigitChars 10 ds 0 : Int)
  let e := e - point.length
  let text := (if e < 0 then ['-'] else []) ++ Nat.toDigits 10 e.natAbs
  return whole ++ point ++ 'e' :: text

def plainExponent (s : List Char) : List Char :=
  match breakOn "e+".toList s with
  | some (a, b) => a ++ 'e' :: b
  | none => s

/-- The text of a double that is not negative. A whole number is written in hexadecimal where that
is shorter; any other text is shortened by moving zeros or the point into the exponent. -/
def scriptText (x : Float) : List Char :=
  match dyadic? x with
  | none => unsignedText x
  | some d =>
    let s := unsignedText x
    if x < 1000.0 && d.isWhole then s
    else
      let s := match s with | '0' :: '.' :: r => '.' :: r | _ => s
      let s := plainExponent s
      let hex := '0' :: 'x' :: lowerHex (min d.truncate.natAbs widest)
      if d.isWhole && hex.length < s.length then hex
      else
        let s := if d.isWhole then s else shorter s (fractionAsExponent? s)
        let s := if s.getLast? = some '0' then shorter s (some (zerosAsExponent s)) else s
        shorter s (pointAsExponent? s)

end LiveLoader.Number
