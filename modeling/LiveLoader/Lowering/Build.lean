import LiveLoader.Syntax.Escape
import LiveLoader.Syntax.Node

/-!
# Made nodes

Short names for the trees that lowering puts into a program.
-/

namespace LiveLoader.Lowering.Build

open Syntax

def name (w : String) : Node := .made (.identifier w) []

def text (s : String) : Node := .made (.string (unitsOfText s)) []

def member (object : Node) (w : String) : Node := .made (.member w false) [object]

def index (object key : Node) : Node := .made (.index false) [object, key]

def assign (target value : Node) : Node := .made (.assignment "=") [target, value]

def either (a b : Node) : Node := .made (.binary .or) [a, b]

def call (callee : Node) (args : List Node) : Node := .made (.call false false) (callee :: args)

def pureCall (isPure : Bool) (callee : Node) (args : List Node) : Node :=
  .made (.call false isPure) (callee :: args)

def emptyObject : Node := .made .object []

def property (key value : Node) : Node := .made (.property .init) [key, value]

def statement (e : Node) : Node := .made .expressionStatement [e]

/-- A statement at a place, so that the comments there stay before it. -/
def statementAt (place : Span) (e : Node) : Node := .mk .expressionStatement place [e]

def none : Node := .absent

def emptyList : Node := .made .list []

def declareAt (place : Span) (keyword variableName : String) (value : Node) : Node :=
  .mk (.variable keyword false) place [.made .declarator [name variableName, value]]

def param (w : String) : Node := .made (.param {}) [emptyList, name w]

/-- An anonymous function of one parameter, with its body at a place, so that the comments there stay
in it. -/
def functionAt (place : Span) (w : String) (body : List Node) : Node :=
  .made (.function {}) [none, .made .params [param w], .mk .functionBody place body]

/-- An anonymous function of one parameter. -/
def function (w : String) (body : List Node) : Node := functionAt .nowhere w body

def ret (e : Node) : Node := .made .return [e]

/-- An empty block. -/
def emptyBlock : Node := .made .block []

/-- Statements in the place of one. -/
def single : List Node → Node
  | [n] => n
  | ns => .made .block ns

end LiveLoader.Lowering.Build
