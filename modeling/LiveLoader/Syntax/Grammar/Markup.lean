import LiveLoader.Syntax.Grammar.Expressions

/-!
# Markup

Elements with their attributes and children. The rule for an element stops at its last angle, since
what follows is a text inside another element and a token elsewhere.
-/

namespace LiveLoader.Syntax.Reader

variable (self : Rule → Reader Node)

def markupWord : Reader String := do
  let t ← token
  if t.word?.isNone then giveUp
  reread markupName
  let w := (← token).word?.getD ""
  advanceName
  return w

/-- A name that begins so stands for itself; another one is looked up. -/
def isIntrinsic (w : String) : Bool :=
  w.toList.contains '-' || (w.toList.head?.any fun c => 'a' ≤ c && c ≤ 'z')

/-- The name of an element: a word, a word with a namespace, or members of a name. -/
def elementName : Reader Node := do
  let t ← token
  let w ← markupWord
  let start := t.span.start
  if ← eatMark ":" then
    let part ← markupWord
    return ← node (.jsxNamespaced (w ++ ":" ++ part)) start []
  if ← atMark "." then
    let base := if w == "this" then Node.mk .this t.span [] else .mk (.identifier w) t.span []
    growing base fun e => do
      if ← eatMark "." then
        let w ← markupWord
        if w.toList.contains '-' then giveUp
        return some (← node (.member w false) start [e])
      else return none
  else if w == "this" then return .mk .this t.span []
  else if isIntrinsic w then node (.jsxTag w) start []
  else return .mk (.identifier w) t.span []

def elementText : Node → String
  | .mk (.jsxTag w) _ _ => w
  | .mk (.jsxNamespaced w) _ _ => w
  | .mk (.identifier w) _ _ => w
  | .mk (.member w _) _ [e] => elementText e ++ "." ++ w
  | .mk .this _ _ => "this"
  | _ => ""

/-- An expression in braces; the closing brace stays the current token. -/
def container : Reader Node := do
  let start ← position
  expectMark "\x7b"
  if ← atMark "\x7d" then
    return .mk .jsxContainer ⟨start, (← token).span.stop⟩ [.absent]
  let e ← within Mode.enterBrackets (self .expression)
  unless ← atMark "\x7d" do giveUp
  return .mk .jsxContainer ⟨start, (← token).span.stop⟩ [e]

def childContainer : Reader Node := do
  let start ← position
  unless ← nextIs (·.isMark "...") do return ← container self
  advance
  advance
  let e ← within Mode.enterBrackets (self .expression)
  unless ← atMark "\x7d" do giveUp
  return .mk .jsxSpreadChild ⟨start, (← token).span.stop⟩ [e]

def markupAttribute : Reader Node := do
  let start ← position
  if ← eatMark "\x7b" then
    expectMark "..."
    let e ← within Mode.enterBrackets (self .expression)
    expectMark "\x7d"
    return ← node .jsxSpreadAttribute start [e]
  let w ← markupWord
  let name ← if ← eatMark ":" then pure (w ++ ":" ++ (← markupWord)) else pure w
  if ← atMark "=" then
    advanceAs markupValue
    let t ← token
    match t.lexeme with
    | .jsxText raw =>
      advance
      node (.jsxAttribute name) start [.mk (.jsxText raw) t.span []]
    | .mark "\x7b" =>
      let e ← container self
      problemIf (e.children.any (·.isAbsent))
      advance
      node (.jsxAttribute name) start [e]
    | .mark "<" =>
      let e ← self .jsxElement
      advance
      node (.jsxAttribute name) start [e]
    | _ => giveUp
  else node (.jsxAttribute name) start [.absent]

/-- Children up to the angle of the closing tag, which is the current token then. -/
def markupChildren : Reader (List Node) := do
  many do
    let t ← token
    match t.lexeme with
    | .jsxText raw =>
      advanceRaw markupChild
      return some (.mk (.jsxText raw) t.span [])
    | .mark "\x7b" =>
      let e ← childContainer self
      advanceRaw markupChild
      return some e
    | .mark "<" =>
      if ← nextIs (·.isMark "/") then return none
      let e ← self .jsxElement
      advanceRaw markupChild
      return some e
    | _ => giveUp

/-- An element or a fragment up to its last angle. -/
def jsxElementRule : Reader Node := do
  let start ← position
  let finish (form : Form) (children : List Node) : Reader Node := do
    unless ← atMark ">" do giveUp
    return .mk form ⟨start, (← token).span.stop⟩ children
  expectMark "<"
  if ← atMark ">" then
    advanceRaw markupChild
    let children ← markupChildren self
    expectMark "<"
    expectMark "/"
    finish .jsxFragment children
  else
    let name ← elementName
    let types ← if ← isTypescript then typeArguments? self else pure []
    let attributes ← many do
      if (← atMark "/") || (← atMark ">") then return none
      else return some (← markupAttribute self)
    let attributes := Node.made .list attributes
    let finishElement (children : List Node) : Reader Node :=
      finish .jsxElement (name :: types ++ [attributes, .made .list children])
    if ← eatMark "/" then finishElement []
    else
      unless ← atMark ">" do giveUp
      advanceRaw markupChild
      let children ← markupChildren self
      expectMark "<"
      expectMark "/"
      let closing ← elementName
      problemIf (elementText name != elementText closing)
      finishElement children

end LiveLoader.Syntax.Reader
