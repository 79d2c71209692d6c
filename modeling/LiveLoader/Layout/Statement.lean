import LiveLoader.Layout.Pattern

/-!
# Statements

Each statement begins on a line of its own, with its comments before it. The body of a loop or a
branch stays on the line unless it is a block. What writes a statement also ends its line; what
declares variables, a function or a class does not, since it can be a part of another statement.
-/

namespace LiveLoader.Layout

open Syntax Writer

def endStatement : Writer := write ";\n"

/-- Whether a function is marked as free of effects, and so its declaration too. -/
def isEffectFree (n : Node) : Bool :=
  match n.form with
  | .function info => info.effectFree
  | _ => false

/-- The function that a statement declares or exports. -/
def declaredFunction (n : Node) : Node :=
  match n with
  | .mk .exportDecl _ [d] | .mk .exportDefault _ [d] =>
    match d.form with
    | .function info => if info.place = .declaration then d else n
    | _ => n
  | n => n

/-- The words before the name of a namespace; one that is named by a text is a module. -/
def namespaceWords (declared : Bool) (n : Node) : String :=
  let word := if n.children.head?.any (·.nameOf?.isSome) then "namespace " else "module "
  if declared then "declare " ++ word else word

/-- A statement with its comments, its indentation and its line end. -/
def writeStatement (p : Piece) : Writer := do
  commentsAt p.span.start
  if isEffectFree (declaredFunction p.node) then
    indent
    write effectFreeMark
    newline
  match p.form with
  | .variable .. | .typeAlias =>
    indent
    p.alone
    endStatement
  | .function _ | .classDef _ | .enumDecl _ | .typeDecl _ =>
    indent
    p.alone
    newline
  | .moduleDecl declared =>
    indent
    write (namespaceWords declared p.node)
    p.alone
    newline
  | _ =>
    indent
    p.alone

def writeStatements (ps : List Piece) : Writer := ps.forM writeStatement

/-- A string at the beginning of a body that is no directive. -/
def looksLikeDirective (p : Piece) : Option (List Nat) :=
  match p.node with
  | .mk .expressionStatement _ [e] => match e.bare.form with
    | .string us => some us
    | _ => none
  | _ => none

/-- The statements of a program or a function. A string that comes first and is no directive is put
in parentheses. -/
def writeBody (ps : List Piece) : Writer :=
  match ps with
  | [] => pure ()
  | p :: rest => do
    match looksLikeDirective p with
    | some us =>
      parens (write (stringText us))
      endStatement
    | none => writeStatement p
    writeStatements rest

def writeBlock (ps : List Piece) : Writer := bracesUnless ps.isEmpty (writeStatements ps)

def aroundLines (k : Comment) : Bool := k.newlineBefore || endsLine k

/-- The body of a function with the comments before its end. Without statements it stays on the line
if they do. -/
def writeFunctionBody (n : Node) (ps : List Piece) : Writer := do
  let closing ← match lastPlace n with
    | some place => takeComments place
    | none => pure []
  let inside : Writer := do
    writeBody ps
    comments closing
  if ps.isEmpty && !closing.any aroundLines then
    write "\x7b"
    inside
    write "\x7d"
  else braces inside

def isBlock (p : Piece) : Bool := match p.form with | .block => true | _ => false

/-- What stands behind a head: a block, an empty statement or a statement on the same line. -/
def writeTail (p : Piece) : Writer := do
  match p.form with
  | .block =>
    write " "
    p.alone
  | .empty => endStatement
  | _ =>
    modify fun s => { s with goesOn := true }
    writeStatement p

/-- Whether a following `else` would be taken up by the statement. -/
def takesElse : Node → Bool
  | .mk .ifElse _ [_, _, other] => if other.isAbsent then true else takesElse other
  | .mk .forLoop _ [_, _, _, body] => takesElse body
  | .mk .forIn _ [_, _, body] => takesElse body
  | .mk (.forOf _) _ [_, _, body] => takesElse body
  | .mk .whileLoop _ [_, body] => takesElse body
  | .mk .withObject _ [_, body] => takesElse body
  | .mk (.labeled _) _ [body] => takesElse body
  | _ => false

def isIf (p : Piece) : Bool := match p.form with | .ifElse => true | _ => false

def isEmptyStatement (p : Piece) : Bool := match p.form with | .empty => true | _ => false

/-- An expression between parentheses behind a word. -/
def writeHead (word : String) (e : Piece) : Writer := do
  write word
  parens e.alone

def writeIf (test yes no : Piece) : Writer := do
  spaceWord
  writeHead "if " test
  let closing : Writer := if no.isAbsent then newline else write " "
  if isBlock yes then
    write " "
    writeBlock yes.parts
    closing
  else if takesElse yes.node then
    write " "
    braces (writeStatement yes)
    closing
  else
    writeTail yes
    unless no.isAbsent do indent
  unless no.isAbsent do
    spaceWord
    write "else"
    if isIf no then
      write " "
      no.alone
    else writeTail no

def writeForLoop (first test update body : Piece) : Writer := do
  spaceWord
  write "for "
  parens do
    unless first.isAbsent do first.write { forbidIn := true }
    write ";"
    unless test.isAbsent do
      write " "
      test.alone
    write ";"
    unless update.isAbsent do
      write " "
      update.alone
  writeTail body

/-- What a loop over a collection assigns to; the name `async` would begin an arrow. -/
def writeLoopTarget (left : Piece) (c : Context) : Writer :=
  parensIf (left.node.nameOf? = some "async") (left.write c)

def writeForIn (left right body : Piece) : Writer := do
  spaceWord
  write "for "
  parens do
    writeLoopTarget left { forbidIn := true }
    write " in "
    right.alone
  writeTail body

def writeForOf (isAwait : Bool) (left right body : Piece) : Writer := do
  spaceWord
  write (if isAwait then "for await " else "for ")
  parens do
    writeLoopTarget left {}
    write " of "
    right.listed
  writeTail body

def writeWhile (test body : Piece) : Writer := do
  spaceWord
  writeHead "while " test
  writeTail body

def writeDo (body test : Piece) : Writer := do
  spaceWord
  write "do"
  if isBlock body then
    write " "
    writeBlock body.parts
    write " "
  else if isEmptyStatement body then
    indent
    body.alone
  else
    newline
    deeper (writeStatement body)
    indent
  writeHead "while " test
  endStatement

def writeCase (test : Piece) (ps : List Piece) : Writer := do
  indent
  if test.isAbsent then write "default"
  else
    write "case "
    test.alone
  write ":"
  match ps with
  | [p] => writeTail p
  | ps =>
    newline
    deeper (writeStatements ps)

def writeSwitch (value : Piece) (cases : List Piece) : Writer := do
  spaceWord
  writeHead "switch " value
  write " "
  bracesUnless cases.isEmpty (cases.forM Piece.alone)
  newline

/-- The part that catches, with the comments before it and before its block. -/
def writeCatch (n : Node) (param body : Piece) : Writer := do
  write " "
  commentsAt n.span.start
  write "catch"
  unless param.isAbsent do
    write " "
    parens param.alone
  write " "
  nameComments body.span.start
  writeBlock body.parts

def writeTry (body handler finalizer : Piece) : Writer := do
  spaceWord
  write "try "
  writeBlock body.parts
  unless handler.isAbsent do handler.alone
  unless finalizer.isAbsent do
    write " finally "
    writeBlock finalizer.parts
  newline

def writeLabeled (label : String) (body : Piece) : Writer := do
  spaceWord
  write (label ++ ":")
  writeTail body

def writeWith (e body : Piece) : Writer := do
  writeHead "with" e
  writeTail body

def writeJump (word : String) (label : Option String) : Writer := do
  spaceWord
  write (word ++ (label.map (" " ++ ·)).getD "")
  endStatement

/-- A word with an optional expression behind it. -/
def writeArgument (word : String) (e : Option Piece) : Writer := do
  spaceWord
  write word
  match e with
  | some e =>
    write " "
    e.alone
  | none => pure ()
  endStatement

def writeDeclarator (pattern value : Piece) (c : Context) : Writer := do
  pattern.alone
  unless value.isAbsent do
    write " = "
    value.write (c.within .comma)

/-- Declared variables, without the semicolon. -/
def writeVariables (keyword : String) (declared : Bool) (ds : List Piece) (c : Context) : Writer := do
  spaceWord
  write ((if declared then "declare " else "") ++ keyword ++ " ")
  commas (ds.map fun d => d.write (c.within .lowest))

end LiveLoader.Layout
