import LiveLoader.Number.Script
import LiveLoader.Syntax.Escape

/-!
# Literals

How strings, numbers and templates are written.
-/

namespace LiveLoader.Layout

open Syntax

def fourDigits (n : Nat) : List Char :=
  let ds := Nat.toDigits 16 n
  List.replicate (4 - ds.length) '0' ++ ds

/-- One character of a string between double quotes; `next` is the one behind it. -/
def stringUnit (n : Nat) (next : Option Nat) : List Char :=
  if n = 0 then
    if next.any fun m => 48 ≤ m && m ≤ 57 then "\\x00".toList else "\\0".toList
  else if n = 7 then "\\x07".toList
  else if n = 8 then "\\b".toList
  else if n = 10 then "\\n".toList
  else if n = 11 then "\\v".toList
  else if n = 12 then "\\f".toList
  else if n = 13 then "\\r".toList
  else if n = 27 then "\\x1B".toList
  else if n = 34 then "\\\"".toList
  else if n = 92 then "\\\\".toList
  else if n = 0xA0 then "\\xA0".toList
  else if n = 0x2028 then "\\u2028".toList
  else if n = 0x2029 then "\\u2029".toList
  else if isHighHalf n || isLowHalf n then '\\' :: 'u' :: fourDigits n
  else [Char.ofNat n]

/-- The end of an embedded script, as it could stand in a page. -/
def scriptEnd : List Nat := unitsOfText "/script"

def lowerUnit (n : Nat) : Nat := if 65 ≤ n && n ≤ 90 then n + 32 else n

/-- A `<` before the name of a script's end is kept apart from it. -/
def stringUnits : List Nat → List Char
  | [] => []
  | n :: r =>
    if n = 60 && scriptEnd.isPrefixOf ((r.take 7).map lowerUnit) then '<' :: '\\' :: stringUnits r
    else stringUnit n r.head? ++ stringUnits r

def stringText (us : List Nat) : String := String.ofList ('"' :: stringUnits us ++ ['"'])

/-- A text in which no end of an embedded script stands. -/
def keptFromScript (s : String) : String :=
  let rec go : List Char → List Char
    | [] => []
    | c :: r =>
      if c = '<' && "/script".toList.isPrefixOf ((r.take 7).map Char.toLower) then
        '<' :: '\\' :: go r
      else c :: go r
  String.ofList (go s.toList)

/-- The text of a directive, in the quotes that its characters allow. -/
def directiveText (raw : String) : String :=
  let rec hasDouble : List Char → Bool
    | [] => false
    | '\\' :: _ :: r => hasDouble r
    | c :: r => c = '"' || hasDouble r
  if hasDouble raw.toList then "'" ++ raw ++ "'" else "\"" ++ raw ++ "\""

def numberText (x : Float) : String := String.ofList (Number.scriptText x)

/-- Below zero, zero itself with a sign included. -/
def isNegative (x : Float) : Bool := x < 0 || (x == 0 && (1.0 / x) < 0)

def takesDot (text : String) : Bool := !text.toList.any fun c => c = '.' || c = 'e' || c = 'x'

end LiveLoader.Layout
