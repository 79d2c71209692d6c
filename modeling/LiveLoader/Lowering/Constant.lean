import LiveLoader.Number.Binary
import LiveLoader.Number.Shortest
import LiveLoader.Syntax.Escape
import LiveLoader.Syntax.Node

/-!
# Constants

The values that members of enumerations have before the program runs: numbers and strings, and what
operators make of them.
-/

namespace LiveLoader.Lowering

open Syntax Number

inductive Constant where
  | number (value : Float)
  | string (units : List Nat)
  deriving Repr

/-- The members of an enumeration so far; one without a value is known only when the program runs. -/
abbrev Members := List (String × Option Constant)

/-- The enumerations of a program so far. -/
abbrev Enumerations := List (String × Members)

namespace Constant

def notANumber : Float := 0.0 / 0.0

def infinity : Float := 1.0 / 0.0

def numberUnits (x : Float) : List Nat := (decimalText x).map Char.toNat

def units : Constant → List Nat
  | number x => numberUnits x
  | string us => us

def shift (y : Float) : Int32 := Int32.ofInt (((toInt32 y).toInt) % 32)

def binary (op : BinaryOperator) (x y : Float) : Option Float :=
  let words (f : Int32 → Int32 → Int32) : Option Float :=
    some (ofInt (f (toInt32 x) (toInt32 y)).toInt)
  match op with
  | .add => some (x + y)
  | .sub => some (x - y)
  | .mul => some (x * y)
  | .div => some (x / y)
  | .rem => some (remainder x y)
  | .pow => some (Float.pow x y)
  | .bitOr => words (· ||| ·)
  | .bitAnd => words (· &&& ·)
  | .bitXor => words (· ^^^ ·)
  | .shl => words fun a _ => a <<< shift y
  | .shr => words fun a _ => a >>> shift y
  | .ushr =>
    some (ofInt (((toInt32 x).toInt % (twoTo 32 : Nat)) / (twoTo ((toInt32 y).toInt % 32).toNat : Nat)))
  | _ => none

/-- A sum with a string joins texts; other operators take numbers. -/
def apply (op : BinaryOperator) : Constant → Constant → Option Constant
  | number x, number y => (binary op x y).map number
  | a, b => if op = .add then some (string (a.units ++ b.units)) else none

def negate (op : UnaryOperator) : Constant → Option Constant
  | number x =>
    match op with
    | .plus => some (number x)
    | .minus => some (number (-x))
    | .bitNot => some (number (ofInt (~~~(toInt32 x)).toInt))
    | _ => none
  | string us =>
    match op with
    | .minus => some (number notANumber)
    | .bitNot => some (number (-1.0))
    | _ => some (string us)

/-- What is kept of a string; half of a surrogate pair cannot be. -/
def heldUnits (us : List Nat) : List Nat := unitsOfText (textOfUnits us)

/-- The text of a template from its pieces and the values between them. -/
def templateUnits : List TemplatePart → List Constant → Option (List Nat)
  | [], _ => some []
  | p :: ps, vs => do
    let front := heldUnits (← p.cooked)
    let here := match vs with | v :: _ => if ps.isEmpty then [] else v.units | [] => []
    return front ++ here ++ (← templateUnits ps vs.tail)

/-- The member of another enumeration that an expression names. -/
def memberValue? (enums : Enumerations) (object : Node) (name : String) : Option Constant := do
  let members ← enums.lookup (← object.nameOf?)
  (members.lookup name).join

/-- The value of a node, given those of its children. -/
def step (enums : Enumerations) (members : Members) (n : Node) (parts : List (Option Constant)) :
    Option Constant :=
  match n.form, n.children, parts with
  | .number x, _, _ => some (number x)
  | .string us, _, _ => some (string (heldUnits us))
  | .template ps, _, vs => do return string (← templateUnits ps (← vs.mapM id))
  | .identifier "Infinity", _, _ => some (number infinity)
  | .identifier "NaN", _, _ => some (number notANumber)
  | .identifier w, _, _ => (members.lookup w).join
  | .member w _, [object], _ => memberValue? enums object w
  | .index _, [object, key], _ =>
    match key.form with
    | .string us => memberValue? enums object (textOfUnits us)
    | .template [⟨_, some us⟩] => memberValue? enums object (textOfUnits us)
    | _ => none
  | .binary op, _, [a, b] => do apply op (← a) (← b)
  | .unary op, _, [a] => a.bind (negate op)
  | .paren, _, [a] => a
  | _, _, _ => none

end Constant

/-- The value of an expression before the program runs, if it has one. -/
def constant? (enums : Enumerations) (members : Members) (n : Node) : Option Constant :=
  n.fold (Constant.step enums members)

end LiveLoader.Lowering
