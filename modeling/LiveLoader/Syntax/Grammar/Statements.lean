import LiveLoader.Syntax.Grammar.Expressions

/-!
# Statements

Statements with their blocks and loops, and the declarations of variables.
-/

namespace LiveLoader.Syntax.Reader

variable (self : Rule → Reader Node)

def expression : Reader Node := within ({ · with allowIn := true }) (self .expression)

/-- Statements up to a closing brace, which is taken. -/
def statementsToBrace : Reader (List Node) := do
  let ss ← many do
    if ← atMark "\x7d" then return none else return some (← self (.statement false))
  expectMark "\x7d"
  return ss

def blockStatement : Reader Node := do
  let start ← position
  expectMark "\x7b"
  let ss ← statementsToBrace self
  node .block start ss

/-- A string that is a whole statement is a directive; its characters are kept as written. -/
def directive? : Reader (Option Node) := do
  let t ← token
  unless t.isString do return none
  let source := (← get).before
  let found ← attempt do
    let e ← self .expression
    endStatement
    unless (match e.form with | .string _ => true | _ => false) do giveUp
  if found.isNone then return none
  let width := t.span.stop - t.span.start
  let raw := (source.drop 1).take (width - 2)
  return some (← node (.directive (String.ofList raw)) t.span.start [])

def directives : Reader (List Node) := many (directive? self)

def functionBodyRule : Reader Node := do
  let start ← position
  expectMark "\x7b"
  let ds ← directives self
  let ss ← statementsToBrace self
  node .functionBody start (ds ++ ss)

/-- Words that declare resources, which have a name and a value. -/
def resourceKeywords : List String := ["using", "await using"]

def declarator (keyword : String) : Reader Node := do
  let start ← position
  let pattern ← self .binding
  let isName := pattern.nameOf?.isSome
  let definite ← do
    if (← isTypescript) && isName && (← atMark "!") && !(← token).newlineBefore then
      advance
      pure true
    else pure false
  if ← isTypescript then
    let _ ← eatMark "?"
  let type ← typeAnnotation self
  let value ← if ← eatMark "=" then self (.assignment true) else pure Node.absent
  problemIf (definite && (type.isEmpty || !value.isAbsent))
  problemIf (keyword ∈ resourceKeywords && !isName)
  node .declarator start (pattern :: type ++ [value])

def declarators (keyword : String) : Reader (List Node) := do
  let first ← declarator self keyword
  let rest ← many do
    if ← eatMark "," then return some (← declarator self keyword) else return none
  return first :: rest

/-- A variable without a value is a problem where only a value can tell what it is. -/
def lacksValue (keyword : String) (ambient : Bool) (declarator : Node) : Bool :=
  match declarator.parts with
  | [p, v] =>
    v.isAbsent && (keyword ∈ resourceKeywords
      || (!ambient && (p.nameOf?.isNone || keyword == "const")))
  | _ => false

/-- Whether `using` begins a declaration here. -/
def beginsUsing : Reader Bool := do
  unless ← atWord "using" do return false
  nextIs fun t => t.isName && !t.newlineBefore && !t.isWord "of"

/-- The words of a declaration of resources that begins here. -/
def resourceKeyword? : Reader (Option String) := do
  if ← beginsUsing then return some "using"
  if (← atWord "await") && (← nextIs fun t => t.isWord "using" && !t.newlineBefore) then
    let found ← aheadHolds do
      advance
      beginsUsing
    if found then return some "await using"
  return none

def takeKeyword (keyword : String) : Reader Unit := do
  if keyword == "await using" then advance
  advance

/-- A declaration of variables behind the modifiers before it, without its end. -/
def declaredVariables (start : Nat) (keyword : String) (declared : Bool) : Reader Node := do
  takeKeyword keyword
  let ds ← declarators self keyword
  node (.variable keyword declared) start ds

/-- A declaration of variables that is a whole statement. -/
def variableStatement (start : Nat) (keyword : String) (declared single : Bool) : Reader Node := do
  let .mk form _ ds ← within ({ · with allowIn := true }) (declaredVariables self start keyword declared)
  let ambient := (← mode).ambient
  problemIf (single && keyword != "var")
  problemIf (ds.any (lacksValue keyword ambient))
  endStatement
  node form start ds

def parenthesizedTest : Reader Node := do
  expectMark "("
  let e ← expression self
  expectMark ")"
  return e

def ifStatement : Reader Node := do
  let start ← position
  advance
  let test ← parenthesizedTest self
  let a ← self (.statement true)
  let b ← if ← eatWord "else" then self (.statement true) else pure Node.absent
  node .ifElse start [test, a, b]

def whileStatement : Reader Node := do
  let start ← position
  advance
  let test ← parenthesizedTest self
  let body ← self (.statement true)
  node .whileLoop start [test, body]

def doStatement : Reader Node := do
  let start ← position
  advance
  let body ← self (.statement true)
  expectWord "while"
  let test ← parenthesizedTest self
  let _ ← eatMark ";"
  node .doWhile start [body, test]

/-- Test, update and body behind the first semicolon of a loop's head. -/
def forRest (start : Nat) (isAwait : Bool) (first : Node) : Reader Node := do
  expectMark ";"
  let test ← if ← atMark ";" then pure Node.absent else expression self
  expectMark ";"
  let update ← if ← atMark ")" then pure Node.absent else expression self
  expectMark ")"
  problemIf isAwait
  let body ← self (.statement true)
  node .forLoop start [first, test, update, body]

/-- The collection and body behind `in` or `of`. -/
def forEachRest (start : Nat) (isAwait : Bool) (left : Node) : Reader Node := do
  let isOf ← atWord "of"
  advance
  let right ← if isOf then initializer self else expression self
  expectMark ")"
  problemIf (isAwait && !isOf)
  let body ← self (.statement true)
  node (if isOf then .forOf isAwait else .forIn) start [left, right, body]

/-- What can stand behind `let` in the head of a loop if it declares something. -/
def followsLoopLet (t : Token) : Bool :=
  match t.lexeme with
  | .word w _ => w != "in" && w != "of"
  | .mark m => m == "[" || m == "\x7b"
  | _ => false

/-- The keyword of a declaration in the head of a loop. -/
def loopKeyword? : Reader (Option String) := do
  if ← atWord "var" then return some "var"
  if ← atWord "const" then return some "const"
  if (← atWord "let") && (← nextIs followsLoopLet) then return some "let"
  resourceKeyword?

/-- A loop whose head begins with a declaration. -/
def forDeclared (start : Nat) (isAwait : Bool) (keyword : String) : Reader Node := do
  let declStart ← position
  let decl ← within ({ · with allowIn := false }) (declaredVariables self declStart keyword false)
  if (← atWord "of") || (← atWord "in") then forEachRest self start isAwait decl
  else
    let ambient := (← mode).ambient
    unless keyword ∈ resourceKeywords do
      problemIf (decl.children.any (lacksValue keyword ambient))
    forRest self start isAwait decl

def forExpression (start : Nat) (isAwait : Bool) : Reader Node := do
  let letOf := (← atWord "let") && (← nextIs (·.isWord "of"))
  let asyncOf := (← atWord "async") && !(← token).isEscaped && (← nextIs (·.isWord "of"))
  let e ← within ({ · with allowIn := false }) (self .expression)
  let isOf ← atWord "of"
  if isOf || (← atWord "in") then
    problemIf (isOf && ((asyncOf && !isAwait) || letOf))
    let target ← asTarget e false
    forEachRest self start isAwait target
  else forRest self start isAwait e

def forStatement : Reader Node := do
  let start ← position
  advance
  let isAwait ← atWord "await"
  if isAwait then
    unless (← mode).inAwait do scriptProblem
    advance
  expectMark "("
  if ← atMark ";" then return ← forRest self start isAwait .absent
  match ← loopKeyword? with
  | some keyword => forDeclared self start isAwait keyword
  | none => forExpression self start isAwait

/-- A label behind `break` or `continue`, on the same line. -/
def jumpLabel? : Reader (Option String) := do
  if ← canEndStatement then return none
  return (← bindingName).nameOf?

def jumpStatement (form : Option String → Form) : Reader Node := do
  let start ← position
  advance
  let label ← jumpLabel?
  endStatement
  node (form label) start []

def returnStatement : Reader Node := do
  let start ← position
  let m ← mode
  problemIf (!m.inFunction && !m.dialect.isCommon)
  advance
  let e ← if ← canEndStatement then pure Node.absent else expression self
  endStatement
  node .return start [e]

def throwStatement : Reader Node := do
  let start ← position
  advance
  problemIf (← token).newlineBefore
  let e ← expression self
  endStatement
  node .throw start [e]

def withStatement : Reader Node := do
  let start ← position
  advance
  let e ← parenthesizedTest self
  let body ← self (.statement true)
  node .withObject start [e, body]

def declaresResource (n : Node) : Bool :=
  match n.form with
  | .variable keyword _ => keyword ∈ resourceKeywords
  | _ => false

/-- One case; a resource that it declares needs a block around it. -/
def switchCase : Reader Node := do
  let start ← position
  let test ←
    if ← eatWord "default" then pure Node.absent
    else
      expectWord "case"
      expression self
  expectMark ":"
  let ss ← many do
    if (← atMark "\x7d") || (← atWord "case") || (← atWord "default") then return none
    return some (← self (.statement false))
  problemIf (ss.any declaresResource)
  node .switchCase start (test :: ss)

def switchStatement : Reader Node := do
  let start ← position
  advance
  let e ← parenthesizedTest self
  expectMark "\x7b"
  let cs ← many do
    if ← atMark "\x7d" then return none else return some (← switchCase self)
  expectMark "\x7d"
  node .switch start (e :: cs)

def catchClause : Reader Node := do
  let start ← position
  advance
  let param ←
    if ← eatMark "(" then
      let p ← self .binding
      let type ← typeAnnotation self
      expectMark ")"
      pure (p :: type)
    else pure [Node.absent]
  let body ← blockStatement self
  node .catchClause start (param ++ [body])

def tryStatement : Reader Node := do
  let start ← position
  advance
  let body ← blockStatement self
  let handler ← if ← atWord "catch" then catchClause self else pure Node.absent
  let finalizer ← if ← eatWord "finally" then blockStatement self else pure Node.absent
  problemIf (handler.isAbsent && finalizer.isAbsent)
  node .tryBlock start [body, handler, finalizer]

/-- An expression, or a name with a colon that labels the statement behind it. -/
def expressionStatement : Reader Node := do
  let start ← position
  let e ← expression self
  match e.nameOf? with
  | some w =>
    if ← eatMark ":" then
      let body ← self (.statement true)
      return ← node (.labeled w) start [body]
  | none => pure ()
  endStatement
  node .expressionStatement start [e]

/-- A statement that begins with `let`: a declaration unless an operator or a dot follows. A name
that a dot or a call follows ends its statement without a semicolon. -/
def letStatement (single : Bool) : Reader Node := do
  let start ← position
  let isOperator ← nextIs fun t => match t.lexeme with
    | .mark m => m ∈ assignmentMarks || (BinaryOperator.ofText? m).isSome
    | .word w _ => w == "in" || w == "instanceof"
    | _ => false
  if isOperator then
    let e ← initializer self
    endStatement
    return ← node .expressionStatement start [e]
  if ← nextIs fun t => t.isMark "." || t.isMark "(" then
    let e ← expression self
    return ← node .expressionStatement start [e]
  if ← nextIs fun t => t.isMark ";" || (single && !t.isMark "[") then
    let e ← variableName
    endStatement
    return ← node .expressionStatement start [e]
  variableStatement self start "let" false single

/-- Whether `async` begins a function here. -/
def beginsAsyncFunction : Reader Bool := do
  return (← atWord "async") && (← nextIs fun t => t.isWord "function" && !t.newlineBefore)

/-- A function as a statement; where only one statement may stand it must be a plain one. -/
def functionStatement (single : Bool) : Reader Node := do
  let start ← position
  let isAsync ← eatWord "async"
  let f ← functionFrom self start isAsync false .declaration true
  problemIf (single && match f.form with
    | .function info => info.isAsync || info.isGenerator
    | _ => false)
  return f

/-- Statements that any dialect has, apart from declarations of modules. -/
def plainStatement (single : Bool) : Reader Node := do
  let start ← position
  let t ← token
  match t.lexeme with
  | .mark "\x7b" => blockStatement self
  | .mark ";" =>
    advance
    node .empty start []
  | .word w _ =>
    if w == "if" then ifStatement self
    else if w == "for" then forStatement self
    else if w == "while" then whileStatement self
    else if w == "do" then doStatement self
    else if w == "break" then jumpStatement .break
    else if w == "continue" then jumpStatement .continue
    else if w == "return" then returnStatement self
    else if w == "throw" then throwStatement self
    else if w == "with" then withStatement self
    else if w == "switch" then switchStatement self
    else if w == "try" then tryStatement self
    else if w == "debugger" then
      advance
      endStatement
      node .debugger start []
    else if w == "function" || (← beginsAsyncFunction) then functionStatement self single
    else if w == "class" then
      problemIf single
      classFrom self start (.made .list []) ⟨true, false, false⟩
    else if w == "var" || w == "const" then variableStatement self start w false single
    else if w == "let" && !t.isEscaped then letStatement self single
    else match ← resourceKeyword? with
      | some keyword => variableStatement self start keyword false single
      | none => expressionStatement self
  | _ => expressionStatement self

end LiveLoader.Syntax.Reader
