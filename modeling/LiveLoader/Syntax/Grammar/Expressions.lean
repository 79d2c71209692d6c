import LiveLoader.Syntax.Grammar.Functions

/-!
# Expressions

Expressions from names and literals up to assignments. What stands left of an assignment is read as
an expression and then taken as a target.
-/

namespace LiveLoader.Syntax

/-- An expression taken as a target, with the places of the shorthand properties whose defaults are
in their place then, and of the lists that end in a spread. -/
structure Target where
  node : Node
  defaults : List Nat := []
  spreads : List Nat := []
  /-- How often a pattern stands where only a variable may. -/
  problems : Nat := 0

namespace Target

/-- The targets of parts under a new form; `isSpread` says that the last part takes all the rest. -/
def gather (form : Form) (place : Span) (parts : List Target) (isSpread : Bool) : Target where
  node := .mk form place (parts.map Target.node)
  defaults := parts.flatMap Target.defaults
  spreads := (if isSpread then [place.start] else []) ++ parts.flatMap Target.spreads
  problems := parts.foldl (fun n t => n + t.problems) 0

def isSpread (n : Node) : Bool := match n.form with | .spread => true | _ => false

/-- Only the last part of a list may be a spread. -/
def spreadsLast (parts : List Node) : Bool := !parts.dropLast.any isSpread

def isPattern (n : Node) : Bool :=
  match n.form with
  | .arrayTarget | .objectTarget => true
  | _ => false

/-- What an expression is as a target, given the same for its parts; as an element of a pattern it
may have a default. -/
def step (n : Node) (parts : List (Bool → Option Target)) (element : Bool) : Option Target :=
  let within : Option (List Target) := parts.mapM fun (part : Bool → Option Target) => part true
  match n.form, n.children, parts with
  | .identifier _, _, _ | .member .., _, _ | .index _, _, _ | .privateMember .., _, _ =>
    some { node := n }
  | .hole, _, _ => if element then some { node := n } else none
  | .paren, [e], [part] =>
    match e.form with
    | .array | .object => none
    | _ => part false
  | .typed .instantiation, _, _ => none
  | .typed _, es, _ =>
    match (es.zip parts).find? (!·.1.isTypes) with
    | some (e, part) =>
      match e.bare.form with
      | .array | .object => none
      | _ => (part false).map fun t => { t with node := n }
    | none => none
  | .array, es, _ =>
    if spreadsLast es then
      within.map fun ts => gather .arrayTarget n.span ts (es.getLast?.any isSpread)
    else none
  | .object, es, _ =>
    if spreadsLast es then
      within.map fun ts =>
        let t := gather .objectTarget n.span ts (es.getLast?.any isSpread)
        let takesApart := ts.getLast?.any fun t => match t.node with
          | .mk .rest _ [p] => isPattern p
          | _ => false
        { t with problems := t.problems + if takesApart then 1 else 0 }
    else none
  | .spread, _, [part] =>
    if element then (part false).map fun t => { t with node := .mk .rest n.span [t.node] } else none
  | .assignment "=", [t, d], _ =>
    if element then some { node := .mk .defaulted n.span [t, d] } else none
  | .property .shorthand, [k, v], _ =>
    some { node := .mk (.targetProperty true) n.span [k, v], defaults := [n.span.start] }
  | .property .init, [k, _], [_, part] =>
    (part true).map fun t => { t with node := .mk (.targetProperty false) n.span [k, t.node] }
  | _, _, _ => none

end Target

def Node.target? (n : Node) : Option Target := n.fold Target.step false

namespace Reader

variable (self : Rule → Reader Node)

/-- Takes an expression as a target; the defaults in it are in their place then. -/
def asTarget (e : Node) (simple : Bool) : Reader Node := do
  match e.target? with
  | some t =>
    if simple && Target.isPattern t.node then giveUp
    modify fun c => { c with
      looseDefaults := c.looseDefaults.filter fun p => !(p ∈ t.defaults)
      problems := c.problems + t.problems + (t.spreads.filter (· ∈ c.spreadCommas)).length }
    return t.node
  | none => giveUp

/-- The substitutions and pieces behind the first piece of a template. -/
def templateRest : Reader (List (Node × TemplatePart)) := do
  let groups ← many do
    match (← token).lexeme with
    | .template _ true => return none
    | .template _ false =>
      advance
      let e ← within Mode.enterBrackets (self .expression)
      unless ← atMark "\x7d" do giveUp
      reread fun s => (templatePiece? (s.drop 1)).getD (.invalid, true, s.drop 1)
      match (← token).lexeme with
      | .template part _ => return some (e, part)
      | _ => giveUp
    | _ => giveUp
  advance
  return groups

def template : Reader Node := do
  let t ← token
  match t.lexeme with
  | .template first _ =>
    let groups ← templateRest self
    node (.template (first :: groups.map (·.2))) t.span.start (groups.map (·.1))
  | _ => giveUp

/-- Type arguments in front of a call or a template belong to that: the callee and these. -/
def calleeParts : Node → List Node
  | .mk (.typed .instantiation) _ parts => parts
  | e => [e]

/-- A template behind a tag. Escapes in it need not be well formed; the tag must have no optional
link. -/
def taggedTemplate (start : Nat) (tag : List Node) (chained : Bool) : Reader Node := do
  let t ← template self
  let spoiled := match t.form with
    | .template parts => (parts.filter (·.cooked.isNone)).length
    | _ => 0
  modify fun c => { c with problems := c.problems - spoiled }
  problemIf chained
  node .taggedTemplate start (tag ++ [t])

def spread : Reader Node := do
  let start ← position
  expectMark "..."
  let e ← self (.assignment true)
  node .spread start [e]

/-- Items between commas, of which the last may be followed by one; where the last is a spread, that
is remembered. -/
def spreadList (close : String) (start : Nat) (item : Reader Node) : Reader (List Node) := do
  many do
    if ← atMark close then return none
    let n ← item
    unless ← atMark close do
      expectMark ","
      if Target.isSpread n && (← atMark close) then
        modify fun c => { c with spreadCommas := start :: c.spreadCommas }
    return some n

def arrayElement : Reader Node := do
  if ← atMark "," then return .mk .hole ⟨← position, ← position⟩ []
  if ← atMark "..." then spread self else self (.assignment true)

def arrayLiteral : Reader Node := do
  let start ← position
  expectMark "["
  let es ← within Mode.enterBrackets (spreadList "]" start (arrayElement self))
  expectMark "]"
  node .array start es

def objectMethod (start : Nat) (kind : PropertyKind) (isAsync isGenerator : Bool) (key : Node) :
    Reader Node := do
  let f ← methodFunction self isAsync isGenerator .objectMethod
  node (.property kind) start [key, f]

/-- What reads or writes a property of an object, behind its word. -/
def objectAccessor (start : Nat) (kind : MethodKind) : Reader Node := do
  let key ← propertyKey self
  let p ← objectMethod self start (if kind = .get then .get else .set) false false key
  p.children.getLast?.forM (checkAccessor kind)
  return p

/-- A property whose name is also its value; as a part of a pattern it can have a default. -/
def shorthandProperty (start : Nat) (t : Token) (key : Node) : Reader Node := do
  let w ← match t.name?, key.form with
    | some w, .identifier _ => pure w
    | _, _ => giveUp
  let m ← mode
  if (m.inAwait && w == "await") || (m.inYield && w == "yield") then giveUp
  if w == "await" then modify fun c => { c with namesAwait := true }
  let value := Node.mk (.identifier w) t.span []
  if ← eatMark "=" then
    modify fun c => { c with looseDefaults := start :: c.looseDefaults }
    let d ← initializer self
    let value ← node .defaulted start [value, d]
    node (.property .shorthand) start [key, value]
  else node (.property .shorthand) start [key, value]

def property : Reader Node := do
  let start ← position
  if ← atMark "..." then return ← spread self
  let ws ← modifiers false
  if ((← atWord "get") || (← atWord "set")) && (← nextIs followsModifier) then
    let kind := if ← atWord "get" then MethodKind.get else MethodKind.set
    allowModifiers [] ws
    advance
    return ← objectAccessor self start kind
  let isGenerator ← eatMark "*"
  let t ← token
  let key ← propertyKey self
  if isGenerator || (← atMark "(") || (← atMark "<") then
    allowModifiers ["async"] ws
    return ← objectMethod self start .method ("async" ∈ ws) isGenerator key
  allowModifiers [] ws
  if ← eatMark ":" then
    let e ← self (.assignment true)
    node (.property .init) start [key, e]
  else shorthandProperty self start t key

def objectLiteral : Reader Node := do
  let start ← position
  expectMark "\x7b"
  let ps ← within Mode.enterBrackets (spreadList "\x7d" start (property self))
  expectMark "\x7d"
  node .object start ps

/-- A function that stands alone between parentheses keeps them. -/
def keepParens : Node → Node
  | .mk (.function info) s cs => .mk (.function { info with inParens := true }) s cs
  | .mk (.arrow info) s cs => .mk (.arrow { info with inParens := true }) s cs
  | n => n

def parenthesized : Reader Node := do
  let start ← position
  expectMark "("
  let inner ← position
  let es ← within Mode.enterBrackets <| many do
    if ← atMark ")" then return none
    let e ← self (.assignment true)
    unless ← atMark ")" do
      expectMark ","
      if ← atMark ")" then giveUp
    return some e
  let e ← match es with
    | [] => giveUp
    | [e] => pure (keepParens e)
    | es => node .sequence inner es
  expectMark ")"
  node .paren start [e]

def argument : Reader Node := do
  if ← atMark "..." then spread self else self (.assignment true)

def arguments : Reader (List Node) := do
  expectMark "("
  let as ← within Mode.enterBrackets (commaList ")" (argument self))
  expectMark ")"
  return as

def expressionWords : List String :=
  ["await", "yield", "this", "super", "null", "true", "false", "function", "class", "new", "delete",
    "typeof", "void", "import"]

/-- What can stand behind type arguments in an expression. -/
def followsTypeArguments : Reader Bool := do
  let t ← token
  if t.isMark "(" || t.isTemplate then return true
  if t.isMark "<" || t.isMark ">" || t.isMark "+" || t.isMark "-" then return false
  if t.newlineBefore then return true
  let isOperator ← match t.lexeme with
    | .mark m => pure (BinaryOperator.ofText? m).isSome
    | .word w _ =>
      pure ((w == "in" && !(← mode).allowIn) || w ∈ ["instanceof", "as", "satisfies"])
    | _ => pure false
  if isOperator then return true
  return match t.lexeme with
    | .word w _ => !(t.isPlainName || w == "in" || w ∈ expressionWords)
    | .mark m => !(m ∈ ["(", "[", "\x7b", "~", "!", "++", "--", "/", "/=", "@"])
    | .eof | .invalid | .jsxText _ => true
    | _ => false

/-- Type arguments in an expression, if what stands here is that and no comparison. -/
def expressionTypeArguments? : Reader (Option (List Node)) := do
  unless ← isTypescript do return none
  unless (← atMark "<") || (← atMark "<<") do return none
  attempt <| types do
    splitAngle
    expectMark "<"
    let ts ← commaList ">" (readType self)
    problemIf ts.isEmpty
    if (← get).before.take 2 = ['>', '='] then giveUp
    expectMark ">"
    unless ← followsTypeArguments do giveUp
    return ts.flatten

def privateProperty? : Reader (Option String) := do
  match (← token).lexeme with
  | .privateWord w =>
    advance
    return some w
  | _ => return none

def dotMember (start : Nat) (object : Node) (optional : Bool) : Reader Node := do
  match ← privateProperty? with
  | some w => node (.privateMember w optional) start [object]
  | none =>
    let k ← propertyWord
    node (.member (k.nameOf?.getD "") optional) start [object]

def bracketMember (start : Nat) (object : Node) (optional : Bool) : Reader Node := do
  expectMark "["
  let e ← within Mode.enterBrackets (self .expression)
  expectMark "]"
  node (.index optional) start [object, e]

/-- What an optional link to a member leads to. -/
def opensOptionalMember (t : Token) : Bool :=
  match t.lexeme with
  | .word .. | .privateWord _ | .mark "[" => true
  | _ => false

/-- One more member of an expression, without calls; the flag says that the chain has an optional
link. -/
def memberStep (start : Nat) (state : Node × Bool) : Reader (Option (Node × Bool)) := do
  let (e, chained) := state
  let t ← token
  match t.lexeme with
  | .mark "?." =>
    unless ← nextIs opensOptionalMember do return none
    advance
    if ← atMark "[" then return some (← bracketMember self start e true, true)
    return some (← dotMember start e true, true)
  | .mark "." =>
    advance
    return some (← dotMember start e false, chained)
  | .mark "[" =>
    if (← mode).inDecorator then return none
    return some (← bracketMember self start e false, chained)
  | .mark "!" =>
    if !(← isTypescript) || t.newlineBefore then return none
    advance
    return some (← node (.typed .nonNull) start [e], chained)
  | .template .. => return some (← taggedTemplate self start (calleeParts e) chained, chained)
  | _ =>
    match ← expressionTypeArguments? self with
    | some types => return some (← node (.typed .instantiation) start (e :: types), chained)
    | none => return none

/-- One more member or call. -/
def chainStep (start : Nat) (state : Node × Bool) : Reader (Option (Node × Bool)) := do
  if let some next ← memberStep self start state then return some next
  let (e, chained) := state
  if ← eatMark "?." then
    let types ← if ← isTypescript then typeArguments? self else pure []
    if (← token).isTemplate then
      return some (← taggedTemplate self start (calleeParts e ++ types) true, true)
    let as ← arguments self
    return some (← node (.call true false) start (e :: types ++ as), true)
  if ← atMark "(" then
    let as ← arguments self
    return some (← node (.call false false) start (calleeParts e ++ as), chained)
  return none

/-- The phases that a module can be asked for. -/
def phaseWords : List String := ["source", "defer"]

/-- A module that is loaded when the program runs: its name, and perhaps options. -/
def importCall (start : Nat) (phase : Option String) : Reader Node := do
  expectMark "("
  let as ← within Mode.enterBrackets (commaList ")" (self (.assignment true)))
  if as.isEmpty || as.length > 2 then giveUp
  expectMark ")"
  node (.importCall phase) start as

def importExpression : Reader Node := do
  let start ← position
  expectWord "import"
  unless ← eatMark "." do return ← importCall self start none
  match (← token).word? with
  | some w =>
    if w == "meta" then
      advance
      modify fun c => { c with hasModuleSyntax := true }
      node (.metaProperty "import.meta") start []
    else if w ∈ phaseWords then
      advance
      importCall self start (some w)
    else giveUp
  | none => giveUp

def functionExpression : Reader Node := do
  let start ← position
  let isAsync ← eatWord "async"
  functionFrom self start isAsync false .expression false

/-- An object is made from a member chain without calls. -/
def newExpression : Reader Node := do
  let start ← position
  expectWord "new"
  if ← eatMark "." then
    expectWord "target"
    return ← node (.metaProperty "new.target") start []
  let callee ← self .newTarget
  problemIf (match callee.form with | .importCall _ | .chain => true | _ => false)
  let as ← if ← atMark "(" then arguments self else pure []
  node (.new false) start (calleeParts callee ++ as)

def classExpression : Reader Node := do
  let start ← position
  let ds ← decorators self
  classFrom self start ds ⟨false, false, false⟩

def regularExpression : Reader Node := do
  reread fun s => (regex? s).getD (.invalid, true, s.drop 1)
  let t ← token
  match t.lexeme with
  | .regex pattern flags =>
    advance
    return .mk (.regex pattern flags) t.span []
  | _ => giveUp

def wordExpression (t : Token) (w : String) : Reader Node := do
  let literal (form : Form) : Reader Node := do
    advance
    return .mk form t.span []
  if w == "this" then literal .this
  else if w == "null" then literal .null
  else if w == "true" then literal (.boolean true)
  else if w == "false" then literal (.boolean false)
  else if w == "super" then
    let e ← literal .super
    unless (← atMark "(") || (← atMark ".") || (← atMark "[") do problem
    return e
  else if w == "function" then functionExpression self
  else if w == "class" then classExpression self
  else if w == "new" then newExpression self
  else if w == "import" then importExpression self
  else if w == "async" && (← nextIs fun t => t.isWord "function" && !t.newlineBefore) then
    functionExpression self
  else variableName

def primary : Reader Node := do
  let t ← token
  match t.lexeme with
  | .number v => advance; return .mk (.number v) t.span []
  | .bigInt n => advance; return .mk (.bigInt n) t.span []
  | .string us => advance; return .mk (.string us) t.span []
  | .template .. => template self
  | .mark "(" => parenthesized self
  | .mark "[" => arrayLiteral self
  | .mark "\x7b" => objectLiteral self
  | .mark "@" => classExpression self
  | .mark "/" | .mark "/=" => regularExpression
  | .mark "<" =>
    unless (← mode).dialect.jsx do giveUp
    let e ← self .jsxElement
    advance
    return e
  | .word w _ => wordExpression self t w
  | _ => giveUp

/-- A chain with an optional link in it is one whole. -/
def closeChain (start : Nat) (state : Node × Bool) : Reader Node := do
  let (e, chained) := state
  let isLink := match e.form with
    | .taggedTemplate => false
    | _ => true
  if chained && isLink then node .chain start [e] else return e

def newTargetRule : Reader Node := do
  let start ← position
  let e ← primary self
  closeChain start (← growing (e, false) (memberStep self start))

def leftHandRule : Reader Node := do
  let start ← position
  let e ← primary self
  closeChain start (← growing (e, false) (chainStep self start))

/-- A word or a literal on the same line. -/
def continuesWord (t : Token) : Bool :=
  !t.newlineBefore && (match t.lexeme with
    | .word .. | .number _ | .bigInt _ | .string _ => true
    | _ => false)

/-- Whether `await` begins an await expression: always where it is allowed, and elsewhere before a
word or a literal on the same line. -/
def beginsAwait : Reader Bool := do
  unless ← atWord "await" do return false
  if (← mode).inAwait then return true
  nextIs continuesWord

def updateMark? (t : Token) : Option Bool :=
  match t.lexeme with
  | .mark "++" => some true
  | .mark "--" => some false
  | _ => none

def unaryOperator? (t : Token) : Option UnaryOperator :=
  match t.lexeme with
  | .mark m => UnaryOperator.ofText? m
  | .word w _ => UnaryOperator.ofText? w
  | _ => none

def markPure : Node → Node
  | .mk (.call o _) s cs => .mk (.call o true) s cs
  | .mk (.new _) s cs => .mk (.new true) s cs
  | .mk (.binary op) s [l, r] => .mk (.binary op) s [markPure l, r]
  | .mk .conditional s [t, a, b] => .mk .conditional s [markPure t, a, b]
  | .mk .chain s [.mk (.call o _) s' cs] => .mk .chain s [.mk (.call o true) s' cs]
  | .mk .paren s [e] => .mk .paren s [markPure e]
  | n => n

/-- Reads an expression; a comment before it can say that the call it begins with has no effect. -/
def markedPure (rule : Reader Node) : Reader Node := do
  let isMarked := (← token).markedPure
  let e ← rule
  return if isMarked then markPure e else e

def unaryRule : Reader Node := do
  let start ← position
  let t ← token
  if let some up := updateMark? t then
    advance
    let e ← self .unary
    let target ← asTarget e true
    return ← node (.update up true) start [target]
  if let some op := unaryOperator? t then
    advance
    let e ← markedPure (self .unary)
    return ← node (.unary op) start [e]
  if ← beginsAwait then
    unless (← mode).inAwait do scriptProblem
    advance
    let e ← within ({ · with inAwait := true }) (markedPure (self .unary))
    return ← node .await start [e]
  if t.isMark "<" then
    if (← mode).dialect.jsx then
      let e ← self .jsxElement
      advance
      return e
    unless ← isTypescript do giveUp
    advance
    let type ← castType self
    expectMark ">"
    let e ← self .unary
    return ← node (.typed .assertion) start (type ++ [e])
  let e ← self .leftHand
  let t ← token
  match updateMark? t with
  | some up =>
    if t.newlineBefore then return e
    let target ← asTarget e true
    advance
    node (.update up false) start [target]
  | none => return e

/-- The operator at the current token; closing angles are joined. -/
def binaryOperator? : Reader (Option BinaryOperator) := do
  if ← atMark ">" then reread fun s => let (m, r) := joinAngles s; (.mark m, true, r)
  let t ← token
  match t.lexeme with
  | .mark m => return BinaryOperator.ofText? m
  | .word w _ =>
    if w == "in" then return if (← mode).allowIn then some .in else none
    else return if w == "instanceof" then some .instanceof else none
  | _ => return none

/-- `??` does not mix with the other logical operators without parentheses. -/
def mixesCoalesce (op : BinaryOperator) (operand : Node) : Bool :=
  match operand.form with
  | .binary inner =>
    op.isLogical && inner.isLogical && ((op == .coalesce) != (inner == .coalesce))
  | _ => false

def isUnaryForm (n : Node) : Bool :=
  match n.form with
  | .unary _ | .await => true
  | _ => false

/-- One more operator that binds tighter than `above`, with its right operand. -/
def binaryStep (start : Nat) (above : Precedence) (left : Node) : Reader (Option Node) := do
  if (← isTypescript) && ((← atWord "as") || (← atWord "satisfies"))
      && !(← token).newlineBefore then
    if Precedence.compare ≤ above then return none
    let how := if ← atWord "as" then TypedSyntax.as else TypedSyntax.satisfies
    advance
    let type ← castType self
    return some (← node (.typed how) start (left :: type))
  match ← binaryOperator? with
  | none => return none
  | some op =>
    let p := op.precedence
    if (if op = .pow then p < above else p ≤ above) then return none
    if op = .pow && isUnaryForm left then giveUp
    advance
    let right ← self (.binary (if op = .pow then p.looser else p))
    problemIf (mixesCoalesce op left || mixesCoalesce op right)
    return some (← node (.binary op) start [left, right])

def binaryRule (above : Precedence) : Reader Node := do
  let start ← position
  let left ← markedPure do
    match ← privateProperty? with
    | some w =>
      unless (← atWord "in") && (← mode).allowIn && above < .compare do giveUp
      node (.privateName w) start []
    | none => self .unary
  growing left (binaryStep self start above)

inductive Verdict where
  | yes | no | perhaps
  deriving DecidableEq

/-- The verdict behind an opening parenthesis. -/
def parenthesisVerdict : Reader Verdict := do
  let t ← token
  if t.isMark ")" then
    advance
    return if (← atMark "=>") || (← atMark ":") || (← atMark "\x7b") then .yes else .no
  if t.isMark "[" || t.isMark "\x7b" then return .perhaps
  if t.isMark "..." then
    advance
    let t ← token
    return if t.isPlainName then .yes else if t.isLiteral then .no else .perhaps
  match t.word? with
  | none => return .no
  | some w =>
    advanceName
    let next ← token
    if w ∈ modifierWords && w != "async" && next.isPlainName then
      return if next.isWord "as" then .no else .yes
    unless t.isPlainName || w == "this" do return .no
    if next.isMark ":" then return .yes
    if next.isMark "?" then
      advance
      let t ← token
      return if t.isMark ":" || t.isMark "," || t.isMark "=" || t.isMark ")" then .yes else .no
    return if next.isMark "," || next.isMark "=" || next.isMark ")" then .perhaps else .no

/-- The verdict behind an opening angle; with markup it could begin an element. -/
def angleVerdict : Reader Verdict := do
  unless (← token).isPlainName || (← atWord "const") do return .no
  unless (← mode).dialect.jsx do return .perhaps
  let _ ← eatWord "const"
  advanceName
  if (← atMark ",") || (← atMark "=") then return .yes
  if ← eatWord "extends" then
    let t ← token
    return if t.isMark "=" || t.isMark ">" || t.isMark "/" then .no else .yes
  return .no

def arrowVerdict : Reader Verdict := do
  if ← eatMark "(" then parenthesisVerdict
  else if ← eatMark "<" then angleVerdict
  else return .no

def arrowStart : Reader Verdict := do
  let t ← token
  if t.isMark "(" || t.isMark "<" then return (← attempt (ahead arrowVerdict)).getD .no
  if t.isWord "async" then
    return (← attempt (ahead do
      advance
      if (← token).newlineBefore then return .no
      arrowVerdict)).getD .no
  return .no

/-- The body of an arrow: a block, or one expression. -/
def arrowBody (isAsync arrowTypes : Bool) : Reader Node := do
  let m ← mode
  within (fun m' => { m'.enterFunction isAsync false with
      allowIn := m.allowIn, inDecorator := m.inDecorator }) do
    if ← atMark "\x7b" then within ({ · with allowIn := true }) (self .functionBody)
    else
      let e ← self (.assignment arrowTypes)
      return .mk .expressionStatement e.span [e]

/-- What stands before the body of an arrow, the mark included: its parameters with their types, and
whether a return type stands behind them. -/
def arrowHead : Reader (Bool × List Node × Bool) := do
  let isAsync ← eatWord "async"
  let (parts, typed) ← within (fun m => { m with inAwait := m.inAwait || isAsync }) do
    let typeParams ← typeParameters? self
    let params ← parameters self .arrow
    let type ← returnType self
    return (typeParams ++ params :: type, !type.isEmpty)
  problemIf (← token).newlineBefore
  expectMark "=>"
  return (isAsync, parts, typed)

/-- An arrow whose parameters stand between parentheses. Where no return type may stand before it,
one can only if a colon follows the arrow. -/
def parenthesizedArrow (start : Nat) (arrowTypes mustEnd : Bool) (head : Bool × List Node × Bool) :
    Reader (Option Node) := do
  let (isAsync, parts, typed) := head
  let body ← arrowBody self isAsync arrowTypes
  if mustEnd && !arrowTypes && typed && !(← atMark ":") then return none
  return some (← node (.arrow { isAsync }) start (parts ++ [body]))

/-- An arrow with parameters between parentheses, if one begins here. -/
def parenthesizedArrow? (arrowTypes : Bool) : Reader (Option Node) := do
  let start ← position
  match ← arrowStart with
  | .no => return none
  | .yes => parenthesizedArrow self start true false (← arrowHead self)
  | .perhaps =>
    let before ← get
    match ← attempt (arrowHead self) with
    | none => return none
    | some head =>
      let arrow ← parenthesizedArrow self start arrowTypes true head
      if arrow.isNone then set before
      return arrow

/-- An arrow with one bare parameter, which was read. -/
def bareArrow (start : Nat) (name : Node) (isAsync arrowTypes : Bool) : Reader Node := do
  problemIf (← token).newlineBefore
  expectMark "=>"
  let body ← arrowBody self isAsync arrowTypes
  let p := Node.mk (.param {}) name.span [.made .list [], name]
  node (.arrow { isAsync }) start [.mk .params name.span [p], body]

/-- `async x => …`, if it begins here. -/
def asyncArrow? (arrowTypes : Bool) : Reader (Option Node) := do
  unless ← atWord "async" do return none
  let found ← aheadHolds do
    advance
    let t ← token
    if t.newlineBefore || !t.isName then return false
    advanceName
    return (← atMark "=>") && !(← token).newlineBefore
  unless found do return none
  let start ← position
  advance
  let name ← variableName
  return some (← bareArrow self start name true arrowTypes)

/-- Whether `yield` begins a yield expression: always in a generator, and elsewhere before a word or
a literal on the same line. -/
def beginsYield : Reader Bool := do
  unless ← atWord "yield" do return false
  if (← mode).inYield then return true
  nextIs continuesWord

def yieldExpression : Reader Node := do
  let start ← position
  unless (← mode).inYield do problem
  advance
  let t ← token
  if t.newlineBefore then return ← node (.yield false) start []
  let delegate ← eatMark "*"
  let t ← token
  let ends := t.isEof || t.isWord "in" || t.isWord "of" || (match t.lexeme with
    | .mark m => m ∈ [")", "]", "\x7d", ",", ";", ":"]
    | _ => false)
  if ends && !delegate then return ← node (.yield false) start []
  let e ← within ({ · with inYield := true }) (self (.assignment true))
  node (.yield delegate) start [e]

def conditionalRest (start : Nat) (arrowTypes : Bool) (test : Node) : Reader Node := do
  if ← eatMark "?" then
    let a ← within ({ · with allowIn := true }) (self (.assignment false))
    expectMark ":"
    let b ← self (.assignment arrowTypes)
    node .conditional start [test, a, b]
  else return test

def markFree : Node → Node
  | .mk (.function info) s cs => .mk (.function { info with effectFree := true }) s cs
  | .mk (.arrow info) s cs => .mk (.arrow { info with effectFree := true }) s cs
  | n => n

/-- Everything below a comma apart from arrows in parentheses. -/
def assignmentRest (arrowTypes : Bool) : Reader Node := do
  let start ← position
  let left ← self (.binary .comma)
  let t ← token
  let isName := left.nameOf?.isSome
  match t.lexeme with
  | .mark m =>
    if m == "=>" && isName then bareArrow self start left false arrowTypes
    else if m ∈ assignmentMarks then
      let target ← asTarget left (m != "=")
      advance
      let value ← self (.assignment arrowTypes)
      node (.assignment m) start [target, value]
    else conditionalRest self start arrowTypes left
  | _ => conditionalRest self start arrowTypes left

def assignmentRule (arrowTypes : Bool) : Reader Node := do
  let isFree := (← token).markedFree
  let e ←
    if ← beginsYield then return ← yieldExpression self
    else if let some e ← parenthesizedArrow? self arrowTypes then pure e
    else if let some e ← asyncArrow? self arrowTypes then pure e
    else markedPure (assignmentRest self arrowTypes)
  return if isFree then markFree e else e

def expressionRule : Reader Node := do
  let start ← position
  let first ← self (.assignment true)
  if ← atMark "," then
    let rest ← many do
      if ← eatMark "," then return some (← self (.assignment true)) else return none
    node .sequence start (first :: rest)
  else return first

end Reader

end LiveLoader.Syntax
