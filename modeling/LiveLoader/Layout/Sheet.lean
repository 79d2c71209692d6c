import LiveLoader.Layout.Literal
import LiveLoader.Syntax.Node
import LiveLoader.Text.Blank
import LiveLoader.Text.Identifier

/-!
# Sheets

A sheet holds the text written so far, the depth of its lines, and the comments that are still to be
written. A comment is taken from the sheet when it is written, so none is written twice. The sheet
also remembers where certain things begin or end, since what is written next can run into them.
-/

namespace LiveLoader.Layout

open Syntax

/-- Signs that run together with an equal sign behind them. -/
inductive Sign where
  | plus | minus | increment | decrement
  deriving DecidableEq, Repr

/-- Whether two signs without a blank between them would be read as another sign. -/
def Sign.runsInto : Sign → Sign → Bool
  | .plus, .plus | .plus, .increment | .minus, .minus | .minus, .decrement => true
  | _, _ => false

structure Sheet where
  text : String := ""
  size : Nat := 0
  last : Option Char := none
  /-- How many tabs a line begins with. -/
  depth : Nat := 0
  /-- The next statement goes on in the line, behind a blank. -/
  goesOn : Bool := false
  comments : List Comment := []
  statementAt : Nat := 0
  arrowAt : Nat := 0
  defaultAt : Nat := 0
  /-- Where the last number ended that would take up a dot behind it. -/
  numberAt : Nat := 0
  regexAt : Nat := 0
  sign : Option Sign := none
  signAt : Nat := 0

abbrev Writer := StateM Sheet Unit

namespace Writer

def write (s : String) : Writer :=
  modify fun p => { p with
    text := p.text ++ s
    size := p.size + s.length
    last := if s.isEmpty then p.last else s.toList.getLast? }

def newline : Writer := write "\n"

/-- The beginning of a line, or a blank if the line goes on. -/
def indent : Writer := do
  let p ← get
  if p.goesOn then
    set { p with goesOn := false }
    write " "
  else write (String.ofList (List.replicate p.depth '\t'))

def deeper (w : Writer) : Writer := do
  modify fun p => { p with depth := p.depth + 1 }
  w
  modify fun p => { p with depth := p.depth - 1 }

def parens (w : Writer) : Writer := do
  write "("
  w
  write ")"

def parensIf (c : Bool) (w : Writer) : Writer := if c then parens w else w

/-- Writes a blank if a word would run into what stands before it. -/
def spaceWord : Writer := do
  let p ← get
  match p.last with
  | some c => if p.regexAt = p.size || Text.isIdentifierPart c then write " "
  | none => pure ()

/-- Writes a sign, apart from one before it that it would run into. -/
def spaceSign (s : Sign) : Writer := do
  let p ← get
  if p.signAt = p.size && p.sign.any (·.runsInto s) then write " "

def markSign (s : Sign) : Writer := modify fun p => { p with sign := some s, signAt := p.size }

def markStatement : Writer := modify fun p => { p with statementAt := p.size }
def markArrow : Writer := modify fun p => { p with arrowAt := p.size }
def markDefault : Writer := modify fun p => { p with defaultAt := p.size }
def markNumber : Writer := modify fun p => { p with numberAt := p.size }
def markRegex : Writer := modify fun p => { p with regexAt := p.size }

def between (separator : String) : List Writer → Writer
  | [] => pure ()
  | w :: ws => do
    w
    ws.forM fun w => do
      write separator
      w

def commas (ws : List Writer) : Writer := between ", " ws

/-- Items between braces, with blanks inside unless there are none. -/
def spacedBraces (ws : List Writer) : Writer :=
  if ws.isEmpty then write "\x7b\x7d"
  else do
    write "\x7b "
    commas ws
    write " \x7d"

def braces (w : Writer) : Writer := do
  write "\x7b"
  newline
  deeper w
  indent
  write "\x7d"

/-- Braces that stay on the line if nothing is to stand between them. -/
def bracesUnless (isEmpty : Bool) (w : Writer) : Writer :=
  if isEmpty then write "\x7b\x7d" else braces w

end Writer

/-- Notices that are always set apart. -/
def isNotice (k : Comment) : Bool :=
  "/*!".toList.isPrefixOf k.text.toList || "//!".toList.isPrefixOf k.text.toList
    || (k.text.splitOn "@license").length > 1 || (k.text.splitOn "@preserve").length > 1

/-- A line ends behind the comment. -/
def endsLine (k : Comment) : Bool := k.isLine || k.newlineAfter

def commentLines (text : String) : List (List Char) :=
  let rec go : List Char → List Char → List (List Char)
    | [], line => [line.reverse]
    | '\r' :: '\n' :: r, line => line.reverse :: go r []
    | c :: r, line =>
      if c = '\n' || c = '\r' || c = '\u2028' || c = '\u2029' then line.reverse :: go r []
      else go r (c :: line)
  go text.toList []

namespace Writer

/-- A comment; the lines of a long one are indented alike. -/
def comment (k : Comment) : Writer := do
  match commentLines k.text with
  | [] => pure ()
  | [_] => write (keptFromScript k.text)
  | lines => lines.forM fun line => do
    unless ['/', '*'].isPrefixOf line do indent
    write (keptFromScript (String.ofList (line.dropWhile Text.isBlank)))
    unless ['*', '/'].isSuffixOf line do newline

/-- Takes the comments that stand before a place from the sheet. -/
def takeComments (place : Nat) : StateM Sheet (List Comment) := do
  let (here, rest) := (← get).comments.partition (·.attachedTo = some place)
  unless here.isEmpty do modify fun p => { p with comments := rest }
  return here

/-- Comments one behind the other, each on a line of its own if it had one. -/
def comments : List Comment → Writer
  | [] => pure ()
  | first :: rest => do
    if first.newlineBefore then
      match (← get).last with
      | none | some '\t' => pure ()
      | some '\n' => indent
      | some _ =>
        newline
        indent
    else indent
    comment first
    let last ← rest.foldlM (fun before k => do
      if endsLine before then
        newline
        indent
      else if isNotice k then newline
      else write " "
      comment k
      return k) first
    if endsLine last then newline

/-- The comments before a place; what follows goes on in the line of the last one. -/
def commentsAt (place : Nat) : Writer := do
  let ks ← takeComments place
  comments ks
  match ks.getLast? with
  | some k => unless endsLine k do modify fun p => { p with goesOn := true }
  | none => pure ()

def nameComments (place : Nat) : Writer := do
  let ks ← takeComments place
  unless ks.isEmpty do
    comments ks
    write " "

/-- Comments among arguments, each on a line of its own; says whether there were any. -/
def innerComments (place : Nat) : StateM Sheet Bool := do
  let ks ← takeComments place
  ks.forM fun k => do
    newline
    indent
    comment k
  unless ks.isEmpty do newline
  return !ks.isEmpty

def hasComment (place : Nat) : StateM Sheet Bool := do
  return (← get).comments.any (·.attachedTo = some place)

end Writer

/-- What surrounds an expression. -/
structure Context where
  /-- The surroundings bind this tightly. -/
  level : Precedence := .lowest
  /-- A call would be taken for something else here. -/
  forbidCall : Bool := false
  /-- The operator `in` would be taken for something else here. -/
  forbidIn : Bool := false

namespace Context

def inner (level : Precedence) : Context := { level }

/-- An operand: the operator `in` stays forbidden. -/
def operand (c : Context) (level : Precedence) : Context := { level, forbidIn := c.forbidIn }

/-- The object of a member: a call stays forbidden. -/
def object (c : Context) : Context := { level := .suffixed, forbidCall := c.forbidCall }

def within (c : Context) (level : Precedence) : Context := { c with level }

end Context

/-- A node with what writes it, and the pieces of its children. -/
inductive Piece where
  | mk (node : Node) (write : Context → Writer) (parts : List Piece)

namespace Piece

def node : Piece → Node | mk n _ _ => n
def write : Piece → Context → Writer | mk _ w _ => w
def parts : Piece → List Piece | mk _ _ ps => ps

def form (p : Piece) : Form := p.node.form
def span (p : Piece) : Span := p.node.span
def isAbsent (p : Piece) : Bool := p.node.isAbsent

def alone (p : Piece) : Writer := p.write {}

def listed (p : Piece) : Writer := p.write (Context.inner .comma)

end Piece

end LiveLoader.Layout
