import LiveLoader.Syntax.Grammar.Markup
import LiveLoader.Syntax.Grammar.Modules

/-!
# Reading a program

Ties the rules of the grammar together and reads whole source texts. Reading either gives up or
gives a tree together with the number of problems that did not stop it.
-/

namespace LiveLoader.Syntax

open Reader

/-- The reader of a rule, with a bound on the nesting of rules. -/
def rule : Nat → Rule → Reader Node
  | 0, _ => throw .exhausted
  | fuel + 1, r =>
    let self := rule fuel
    match r with
    | .statement single => statementRule self single
    | .assignment arrowTypes => assignmentRule self arrowTypes
    | .expression => expressionRule self
    | .binary above => binaryRule self above
    | .unary => unaryRule self
    | .leftHand => leftHandRule self
    | .newTarget => newTargetRule self
    | .type => typeRule self
    | .typeOperand => typeOperandRule self
    | .binding => bindingRule self
    | .functionBody => functionBodyRule self
    | .classDef => classExpression self
    | .jsxElement => jsxElementRule self
    | .moduleBody => moduleBodyRule self

inductive Reading where
  | gaveUp (problems : Nat)
  | tree (program : Program) (problems : Nat)
  deriving Inhabited

def Reading.problems : Reading → Nat
  | gaveUp n => n
  | tree _ n => n

/-- The program that was read; an empty one if the reader gave up. -/
def Reading.program : Reading → Program
  | gaveUp _ => { hashbang := none, body := [], comments := [], length := 0, isModule := false }
  | tree p _ => p

def Reading.isGaveUp : Reading → Bool
  | gaveUp _ => true
  | tree .. => false

/-- The first line of a script may name its interpreter. -/
def splitHashbang : List Char → Option (List Char) × List Char
  | '#' :: '!' :: r =>
    let line := r.takeWhile (!isLineEnd ·)
    (some line, r.drop line.length)
  | s => (none, s)

def startCursor (s : List Char) (pos length : Nat) : Cursor where
  token := ⟨.eof, ⟨pos, pos⟩, false, false, false⟩
  before := s
  after := s
  lastStop := pos
  length := length

/-- A statement of a program, with the place before it where the word `await` was read in it as the
name of a variable. -/
def programStatement (fuel : Nat) : Reader (Node × Option Cursor) := do
  let before ← get
  set { before with namesAwait := false }
  let n ← rule fuel (.statement false)
  return (n, if (← get).namesAwait then some before else none)

def programBody (fuel : Nat) : Reader (List (Node × Option Cursor)) := do
  let c ← get
  match skipTrivia false (c.after.length + 1) (.start true) c.after c.token.span.stop with
  | none => giveUp
  | some (t, s, pos) =>
    enter s pos t lexeme
    let ds ← directives (rule fuel)
    let ss ← many do
      if ← atEof then return none else return some (← programStatement fuel)
    return ds.map (·, none) ++ ss

/-- Reads a statement again where `await` is an operator; all its problems count. -/
def readAgain (fuel : Nat) (m : Mode) (n : Node) (place : Option Cursor) (problems : Nat) :
    Except Failure (Node × Nat) := do
  match place with
  | none => return (n, problems)
  | some c =>
    let (n, c') ← rule fuel (.statement false) { m with inAwait := true } { c with problems := 0 }
    return (n, problems + c'.problems)

def readAllAgain (fuel : Nat) (m : Mode) :
    List (Node × Option Cursor) → Nat → Except Failure (List Node × Nat)
  | [], problems => return ([], problems)
  | (n, place) :: rest, problems => do
    let (n, problems) ← readAgain fuel m n place problems
    let (ns, problems) ← readAllAgain fuel m rest problems
    return (n :: ns, problems)

/-- Nesting of rules is bounded by what one character can open. -/
def ruleBound (length : Nat) : Nat := 16 * length + 64

def patternNames : Node → List String :=
  Node.fold fun n parts => match n.form, parts with
    | .identifier w, _ => [w]
    | .defaulted, p :: _ | .rest, p :: _ | .bindingProperty, _ :: p :: _ => p
    | .objectPattern, ps | .arrayPattern, ps => ps.flatten
    | _, _ => []

/-- Names that are exported, `default` for a default. -/
def exportedNames (n : Node) : List String :=
  match n with
  | .mk .exportDefault _ _ => ["default"]
  | .mk (.exportNamed _) _ [ss, _, _] => ss.children.map fun s => match s.children with
    | [_, e] => nameText e
    | _ => ""
  | .mk (.exportAll _) _ (name :: _) => if name.isAbsent then [] else [nameText name]
  | .mk .exportDecl _ [.mk (.variable _ _) _ ds] => ds.flatMap fun d => match d.children with
    | p :: _ => patternNames p
    | [] => []
  | .mk .exportDecl _ [.mk (.function _) _ (name :: _)] => name.nameOf?.toList
  | .mk .exportDecl _ [.mk (.classDef _) _ (_ :: name :: _)] => name.nameOf?.toList
  | _ => []

def repeatedExports (body : List Node) : Nat :=
  let names := body.flatMap exportedNames
  names.length - names.eraseDups.length

/-- Reads a source text. Where the dialect leaves open whether it is a module, it is read as a
script first. If imports or exports make it a module, the statements in which `await` was taken as a
name are read again, and what is a problem of scripts alone is none. -/
def read (d : Dialect) (source : List Char) : Reading :=
  let (hashbang, s) := splitHashbang source
  let fuel := ruleBound source.length
  let mode : Mode := { dialect := d, inAwait := d.isModule, ambient := d.declarations }
  let result : Except Failure Reading := do
    let (statements, c) ←
      programBody fuel mode (startCursor s (source.length - s.length) source.length)
    let isModule := d.isModule || (c.hasModuleSyntax && !d.isCommon)
    let (body, problems) ←
      if isModule && !d.isModule then readAllAgain fuel mode statements c.problems
      else pure (statements.map (·.1), c.problems + if isModule then 0 else c.scriptProblems)
    let repeated := if d.typescript then 0 else repeatedExports body
    return .tree
      { hashbang := hashbang.map String.ofList
        body, comments := c.comments.reverse, length := source.length, isModule }
      (problems + c.looseDefaults.length + repeated)
  match result with
  | .ok r => r
  | .error _ => .gaveUp 1

end LiveLoader.Syntax
