/-!
# Operators

The operators of script expressions with their written form, and how tightly each binds.
-/

namespace LiveLoader.Syntax

/-- How tightly an expression binds, loosest first. -/
inductive Precedence where
  | lowest | comma | spread | yield | assign | conditional | coalesce | logicalOr | logicalAnd
  | bitOr | bitXor | bitAnd | equals | compare | shift | add | multiply | exponent | unary
  | suffixed | new | call | member
  deriving DecidableEq, Repr

namespace Precedence

def rank (p : Precedence) : Nat := p.ctorIdx

instance : LE Precedence := ⟨fun p q => p.rank ≤ q.rank⟩
instance (p q : Precedence) : Decidable (p ≤ q) := inferInstanceAs (Decidable (p.rank ≤ q.rank))
instance : LT Precedence := ⟨fun p q => p.rank < q.rank⟩
instance (p q : Precedence) : Decidable (p < q) := inferInstanceAs (Decidable (p.rank < q.rank))

/-- The next looser level. -/
def looser : Precedence → Precedence
  | lowest => lowest | comma => lowest | spread => comma | yield => spread | assign => yield
  | conditional => assign | coalesce => conditional | logicalOr => coalesce
  | logicalAnd => logicalOr | bitOr => logicalAnd | bitXor => bitOr | bitAnd => bitXor
  | equals => bitAnd | compare => equals | shift => compare | add => shift | multiply => add
  | exponent => multiply | unary => exponent | suffixed => unary | new => suffixed | call => new
  | member => call

end Precedence

inductive BinaryOperator where
  | eq | ne | strictEq | strictNe | lt | le | gt | ge | shl | shr | ushr
  | add | sub | mul | div | rem | pow | bitOr | bitXor | bitAnd | in | instanceof
  | or | and | coalesce
  deriving DecidableEq, Repr

namespace BinaryOperator

def all : List BinaryOperator :=
  [eq, ne, strictEq, strictNe, lt, le, gt, ge, shl, shr, ushr, add, sub, mul, div, rem, pow, bitOr,
    bitXor, bitAnd, .in, instanceof, or, and, coalesce]

def text : BinaryOperator → String
  | eq => "==" | ne => "!=" | strictEq => "===" | strictNe => "!==" | lt => "<" | le => "<="
  | gt => ">" | ge => ">=" | shl => "<<" | shr => ">>" | ushr => ">>>" | add => "+" | sub => "-"
  | mul => "*" | div => "/" | rem => "%" | pow => "**" | bitOr => "|" | bitXor => "^"
  | bitAnd => "&" | .in => "in" | instanceof => "instanceof" | or => "||" | and => "&&"
  | coalesce => "??"

def ofText? (s : String) : Option BinaryOperator := all.find? (·.text = s)

def precedence : BinaryOperator → Precedence
  | eq | ne | strictEq | strictNe => .equals
  | lt | le | gt | ge | .in | instanceof => .compare
  | shl | shr | ushr => .shift
  | add | sub => .add
  | mul | div | rem => .multiply
  | pow => .exponent
  | bitOr => .bitOr | bitXor => .bitXor | bitAnd => .bitAnd
  | or => .logicalOr | and => .logicalAnd | coalesce => .coalesce

def isLogical : BinaryOperator → Bool
  | or | and | coalesce => true
  | _ => false

end BinaryOperator

inductive UnaryOperator where
  | plus | minus | not | bitNot | typeof | void | delete
  deriving DecidableEq, Repr

namespace UnaryOperator

def all : List UnaryOperator := [plus, minus, not, bitNot, typeof, void, delete]

def text : UnaryOperator → String
  | plus => "+" | minus => "-" | not => "!" | bitNot => "~" | typeof => "typeof" | void => "void"
  | delete => "delete"

def ofText? (s : String) : Option UnaryOperator := all.find? (·.text = s)

def isWord : UnaryOperator → Bool
  | typeof | void | delete => true
  | _ => false

end UnaryOperator

/-- The written forms of assignment. -/
def assignmentMarks : List String :=
  ["=", "+=", "-=", "*=", "/=", "%=", "**=", "<<=", ">>=", ">>>=", "&=", "|=", "^=", "&&=", "||=",
    "??="]

end LiveLoader.Syntax
