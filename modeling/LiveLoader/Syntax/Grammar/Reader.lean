import LiveLoader.Syntax.Dialect
import LiveLoader.Syntax.Lexer

/-!
# Reading tokens

The state of a reader of script text and its basic steps. A reader either gives up or goes on; what
it noticed on the way but could go on from is counted as a problem. Rules that refer to each other
are tied together through `Rule`: a rule calls the others through a function that it is given.
-/

namespace LiveLoader.Syntax

structure Mode where
  dialect : Dialect
  /-- The word `in` is an operator. -/
  allowIn : Bool := true
  inYield : Bool := false
  inAwait : Bool := false
  inFunction : Bool := false
  /-- Everything is declared only. -/
  ambient : Bool := false
  /-- The word `extends` may follow a type. -/
  conditionalTypes : Bool := true
  /-- Inside a decorator, where a bracket begins the next member. -/
  inDecorator : Bool := false

/-- What holds between brackets does not depend on what stands around them. -/
def Mode.enterBrackets (m : Mode) : Mode := { m with allowIn := true, inDecorator := false }

structure Cursor where
  token : Token
  before : List Char
  after : List Char
  lastStop : Nat
  /-- Comments that belong to tokens read so far, last first. -/
  comments : List Comment := []
  problems : Nat := 0
  /-- How many more there are if the text turns out not to be a module. -/
  scriptProblems : Nat := 0
  hasModuleSyntax : Bool := false
  namesAwait : Bool := false
  /-- Where a shorthand property has a default, which only a pattern may have. -/
  looseDefaults : List Nat := []
  /-- Where a list begins that ends in a spread and a comma, which no pattern may have. -/
  spreadCommas : List Nat := []
  length : Nat

inductive Failure where
  | unexpected (position : Nat)
  | exhausted
  deriving DecidableEq, Repr

abbrev Reader := ReaderT Mode (StateT Cursor (Except Failure))

inductive Rule where
  | statement (single : Bool)
  /-- Everything below a comma; `arrowTypes` where a return type may stand before an arrow whatever
  follows it. -/
  | assignment (arrowTypes : Bool)
  | expression
  | binary (above : Precedence)
  | unary
  | leftHand
  | newTarget
  | type
  | typeOperand
  | binding
  | functionBody
  | classDef
  | jsxElement
  | moduleBody
  deriving DecidableEq, Repr

namespace Reader

def giveUp : Reader α := do throw (.unexpected (← get).token.span.start)

def problem : Reader Unit := modify fun s => { s with problems := s.problems + 1 }

def problemIf (c : Bool) : Reader Unit := if c then problem else pure ()

/-- A problem wherever the text is no module; where it can still turn out to be one, it counts in
the end. -/
def scriptProblem : Reader Unit := do
  let d := (← read).dialect
  if d.isModule || d.isCommon then problem
  else modify fun s => { s with scriptProblems := s.scriptProblems + 1 }

def token : Reader Token := return (← get).token

def position : Reader Nat := return (← get).token.span.start

def lastStop : Reader Nat := return (← get).lastStop

def mode : Reader Mode := read

def isTypescript : Reader Bool := return (← read).dialect.typescript

def within (f : Mode → Mode) (p : Reader α) : Reader α := withReader f p

/-- Tries a rule and goes back if it gives up. -/
def attempt (p : Reader α) : Reader (Option α) := fun m s =>
  match p m s with
  | .ok (a, s') => .ok (some a, s')
  | .error (.unexpected _) => .ok (none, s)
  | .error .exhausted => .error .exhausted

def ahead (p : Reader α) : Reader α := fun m s =>
  match p m s with
  | .ok (a, _) => .ok (a, s)
  | .error e => .error e

def aheadHolds (p : Reader Bool) : Reader Bool := do return (← attempt (ahead p)).getD false

/-- Makes the text `s` at `pos` the current token. -/
def enter (s : List Char) (pos : Nat) (t : Trivia)
    (read : List Char → Lexeme × Bool × List Char) : Reader Unit := do
  let (lexeme, good, rest) := read s
  let stop := pos + (s.length - rest.length)
  modify fun c => { c with
    token := ⟨lexeme, ⟨pos, stop⟩, t.newline, t.markedPure, t.markedFree⟩
    before := s
    after := rest
    comments := t.commentsAt pos ++ c.comments
    problems := c.problems + if good then 0 else 1 }

/-- A line comment behind one of these belongs to what follows. -/
def isSticky (t : Token) : Bool := t.isMark "=" || t.isMark "("

/-- Steps to the next token, read as the given kind of lexeme. -/
def advanceAs (read : List Char → Lexeme × Bool × List Char) : Reader Unit := do
  let c ← get
  set { c with lastStop := c.token.span.stop }
  match skipTrivia (isSticky c.token) (c.after.length + 1) (.start false) c.after
      c.token.span.stop with
  | none => giveUp
  | some (t, s, pos) => enter s pos t read

/-- Steps behind a name, which may be written with escapes. -/
def advanceName : Reader Unit := advanceAs lexeme

/-- Steps to the next token; a keyword must be written as it is. -/
def advance : Reader Unit := do
  problemIf (← get).token.isDisguised
  advanceName

def reread (read : List Char → Lexeme × Bool × List Char) : Reader Unit := do
  let c ← get
  let (lexeme, good, rest) := read c.before
  set { c with
    token := { c.token with
      lexeme
      span := ⟨c.token.span.start, c.token.span.start + (c.before.length - rest.length)⟩ }
    after := rest
    problems := c.problems + if good then 0 else 1 }

/-- Steps to a token that begins right behind the current one. -/
def advanceRaw (read : List Char → Lexeme × Bool × List Char) : Reader Unit := do
  let c ← get
  set { c with lastStop := c.token.span.stop }
  enter c.after c.token.span.stop (.start false) read

def atMark (m : String) : Reader Bool := return (← get).token.isMark m

def atWord (w : String) : Reader Bool := return (← get).token.isWord w

def atEof : Reader Bool := return (← get).token.isEof

def eatMark (m : String) : Reader Bool := do
  if ← atMark m then advance; return true else return false

def eatWord (w : String) : Reader Bool := do
  if ← atWord w then advance; return true else return false

def expectMark (m : String) : Reader Unit := do
  if ← atMark m then advance else giveUp

def expectWord (w : String) : Reader Unit := do
  if ← atWord w then advance else giveUp

def nextIs (p : Token → Bool) : Reader Bool := aheadHolds do
  advance
  return p (← token)

/-- The node of a form from `start` to the last token read. -/
def node (form : Form) (start : Nat) (children : List Node) : Reader Node := do
  return .mk form ⟨start, ← lastStop⟩ children

/-- A statement may end here: at a brace, at the end, or where a line ended. -/
def canEndStatement : Reader Bool := do
  let t ← token
  return t.isMark ";" || t.isMark "\x7d" || t.isEof || t.newlineBefore

def endStatement : Reader Unit := do
  if ← canEndStatement then
    let _ ← eatMark ";"
  else giveUp

/-- Repeats a step, at most `fuel` times, and collects what it gives. -/
def collect (step : Reader (Option α)) : Nat → List α → Reader (List α)
  | 0, _ => throw .exhausted
  | fuel + 1, acc => do
    match ← step with
    | some a => collect step fuel (a :: acc)
    | none => return acc.reverse

/-- The number of steps that the rest of the source can take. -/
def room : Reader Nat := do
  let c ← get
  return c.length - c.token.span.start + 2

def many (step : Reader (Option α)) : Reader (List α) := do collect step (← room) []

def extendBy (step : α → Reader (Option α)) : Nat → α → Reader α
  | 0, _ => throw .exhausted
  | fuel + 1, a => do
    match ← step a with
    | some b => extendBy step fuel b
    | none => return a

def growing (a : α) (step : α → Reader (Option α)) : Reader α := do extendBy step (← room) a

/-- Items between commas up to a closing mark, which is not taken; a comma may follow the last. -/
def commaList (close : String) (item : Reader α) : Reader (List α) := do
  many do
    if ← atMark close then return none
    let a ← item
    unless ← atMark close do expectMark ","
    return some a

/-- As `commaList`, for items of which one that `isLast` must be the last, without a comma behind
it. -/
def commaListTo (close : String) (isLast : α → Bool) (item : Reader α) : Reader (List α) := do
  let mode ← read
  let as ← many do
    if ← atMark close then return none
    let a ← item
    unless ← atMark close do
      expectMark ","
      problemIf (isLast a && !((← atMark close) && mode.ambient))
    return some a
  return as

def checkName (t : Token) (m : Mode) : Reader Unit :=
  problemIf ((m.inAwait && t.isWord "await") || (m.inYield && t.isWord "yield"))

def bindingName : Reader Node := do
  let t ← token
  match t.name? with
  | some w =>
    checkName t (← mode)
    advanceName
    return .mk (.identifier w) t.span []
  | none => giveUp

def variableName : Reader Node := do
  if ← atWord "await" then modify fun c => { c with namesAwait := true }
  bindingName

def propertyWord : Reader Node := do
  let t ← token
  match t.word? with
  | some w =>
    advanceName
    return .mk (.identifier w) t.span []
  | none => giveUp

def stringLiteral : Reader Node := do
  let t ← token
  match t.lexeme with
  | .string us =>
    advance
    return .mk (.string us) t.span []
  | _ => giveUp

def slice (s : List Char) (count : Nat) : String := String.ofList (s.take count)

end Reader

end LiveLoader.Syntax
