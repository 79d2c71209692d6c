import LiveLoader.Layout.Sheet

/-!
# Expressions

How each form of expression is written. An expression is put in parentheses where its surroundings
bind as tightly as it does, or where its first word would be read as the beginning of a statement.
-/

namespace LiveLoader.Layout

open Syntax Writer

/-- What begins a statement or a default export cannot be one of these without parentheses. -/
def opensDeclaration : StateM Sheet Bool := do
  let p ← get
  return p.statementAt = p.size || p.defaultAt = p.size

/-- What begins a statement or the body of an arrow would be taken for a block. -/
def opensBlock : StateM Sheet Bool := do
  let p ← get
  return p.statementAt = p.size || p.arrowAt = p.size

def writeNumber (x : Float) (c : Context) : Writer := do
  let plain : Writer := do
    let s := numberText x.abs
    write s
    if takesDot s then markNumber
  if x.isNaN then
    spaceWord
    write "NaN"
  else if !isNegative x then
    spaceWord
    plain
  else parensIf (.unary ≤ c.level) do
    spaceSign .minus
    write "-"
    plain

def writeRegex (pattern flags : String) : Writer := do
  spaceWord
  let last := (← get).last
  let closesScript := "script".toList.isPrefixOf ((pattern.toList.take 6).map Char.toLower)
  if last = some '/' || (last = some '<' && closesScript) then write " "
  write ("/" ++ pattern ++ "/" ++ flags)
  markRegex

def writeTemplate (parts : List TemplatePart) (values : List Piece) : Writer := do
  let quote := String.singleton (Char.ofNat 0x60)
  let rec go : List TemplatePart → List Piece → Writer
    | [], _ => pure ()
    | p :: ps, [] => do
      write (keptFromScript p.raw)
      go ps []
    | p :: ps, v :: vs => do
      write (keptFromScript p.raw)
      write "$\x7b"
      v.alone
      write "\x7d"
      go ps vs
  write quote
  go parts values
  write quote

/-- Items on lines of their own, each with its comments before it. -/
def remarkedItems : List Piece → Writer
  | [] => pure ()
  | first :: rest => do
    let item (p : Piece) : Writer := do
      unless ← innerComments p.span.start do newline
      indent
      p.listed
    item first
    rest.forM fun p => do
      write ","
      item p

/-- The end of items on lines of their own, with the comments before the parenthesis at `place`. -/
def remarkedEnd (place : Option Nat) : Writer := do
  let remarked ← match place with
    | some place => innerComments place
    | none => pure false
  unless remarked do newline

/-- The place of the last character of a node that stands in the source. -/
def lastPlace (n : Node) : Option Nat := if n.span.stop = 0 then none else some (n.span.stop - 1)

def hasCommentAt? : Option Nat → StateM Sheet Bool
  | some place => hasComment place
  | none => pure false

/-- Arguments between parentheses, one on a line if comments stand among them. -/
def writeArguments (n : Node) (args : List Piece) : Writer := parens do
  let closing ← hasCommentAt? (lastPlace n)
  let among ← args.anyM fun a => hasComment a.span.start
  if closing || among then
    deeper do
      remarkedItems args
      remarkedEnd (lastPlace n)
    indent
  else commas (args.map Piece.listed)

def pureMark : String := "/* @__PURE__ */"
def effectFreeMark : String := "/* @__NO_SIDE_EFFECTS__ */"

/-- A mark before an expression. -/
def writeMark (mark : String) : Writer := write (mark ++ " ")

def writeCall (n : Node) (optional pure? : Bool) (callee : Piece) (args : List Piece) (c : Context) :
    Writer := do
  let p ← get
  let isStatement := p.statementAt = p.size
  let isDefault := p.defaultAt = p.size
  parensIf (.new ≤ c.level || c.forbidCall || (pure? && .suffixed ≤ c.level)) do
    if pure? then writeMark pureMark
    if isDefault then markDefault else if isStatement then markStatement
    callee.write (Context.inner .suffixed)
    if optional then write "?."
    writeArguments n args

def writeNew (n : Node) (pure? : Bool) (callee : Piece) (args : List Piece) (c : Context) : Writer :=
  parensIf (.member ≤ c.level || (pure? && .suffixed ≤ c.level)) do
    if pure? then writeMark pureMark
    spaceWord
    write "new "
    callee.write { level := .new, forbidCall := true }
    writeArguments n args

/-- An import that is called, with the phase it asks for. -/
def writeImportCall (n : Node) (phase : Option String) (args : List Piece) (c : Context) : Writer := do
  let closing ← hasCommentAt? (lastPlace n)
  let among ← args.anyM fun a => hasComment a.span.start
  parensIf (.new ≤ c.level || c.forbidCall) do
    spaceWord
    write ("import" ++ (phase.map ("." ++ ·)).getD "")
    parens do
      if closing || among then
        deeper do
          args.zipIdx.forM fun (a, i) => do
            if i = 0 then
              unless ← innerComments a.span.start do newline
            else
              write ","
              newline
            indent
            a.listed
          remarkedEnd (if closing then lastPlace n else none)
        indent
      else commas (args.map Piece.listed)

/-- A member behind an object that may end in a number. -/
def writeMember (name : String) (optional : Bool) (object : Piece) (c : Context) : Writer := do
  object.write c.object
  let p ← get
  if optional then write "?" else if p.numberAt = p.size then write " "
  write ("." ++ name)

def writePrivateMember (name : String) (optional : Bool) (object : Piece) (c : Context) : Writer := do
  object.write c.object
  write ((if optional then "?" else "") ++ ".#" ++ name)

/-- The name `let` before a bracket would begin a declaration. -/
def writeIndex (optional : Bool) (object index : Piece) (c : Context) : Writer := do
  parensIf (object.node.bare.nameOf? = some "let") (object.write c.object)
  write (if optional then "?.[" else "[")
  index.alone
  write "]"

def signOf? : UnaryOperator → Option Sign
  | .plus => some .plus
  | .minus => some .minus
  | _ => none

def isInfinite (n : Node) : Bool :=
  match n.form with
  | .number x => x.isInf && 0 < x
  | _ => false

def writeUnary (op : UnaryOperator) (operand : Piece) (c : Context) : Writer :=
  parensIf (.unary ≤ c.level) do
    if op.isWord then
      spaceWord
      write (op.text ++ " ")
    else match signOf? op with
      | some s =>
        spaceSign s
        write op.text
        markSign s
      | none => write op.text
    let value := operand.write (c.within .exponent)
    if op = .delete && isInfinite operand.node then
      write "(0, "
      value
      write ")"
    else value

def writeUpdate (up before : Bool) (target : Piece) (c : Context) : Writer := do
  let sign : Sign := if up then .increment else .decrement
  let mark := if up then "++" else "--"
  if before then
    parensIf (.unary ≤ c.level) do
      spaceSign sign
      write mark
      markSign sign
      target.write (c.within .unary)
  else
    parensIf (.suffixed ≤ c.level) do
      spaceSign sign
      target.write (c.within .suffixed)
      write mark
      markSign sign

def isUnary (n : Node) : Bool :=
  match n.bare.form with
  | .unary _ => true
  | .number x => isNegative x
  | _ => false

/-- Whether an operand of `??` is one of the other logical operators. -/
def isOtherLogical (n : Node) : Bool :=
  match n.bare.form with
  | .binary .or | .binary .and => true
  | _ => false

def isPrivateName (n : Node) : Bool := match n.form with | .privateName _ => true | _ => false

/-- A logical operator may stand on either side of itself. -/
def writeBinary (op : BinaryOperator) (l r : Piece) (c : Context) : Writer :=
  let p := op.precedence
  let needed := p ≤ c.level || (op = .in && c.forbidIn)
  let c := if needed then { c with forbidIn := false } else c
  let left :=
    if op = .coalesce && isOtherLogical l.node then Precedence.unary
    else if op = .pow then (if isUnary l.node then .call else p)
    else p.looser
  let right :=
    if op = .coalesce && isOtherLogical r.node then Precedence.unary
    else if op = .pow || op.isLogical then p.looser
    else p
  parensIf needed do
    l.write (c.within left)
    write (" " ++ op.text ++ " ")
    r.write (c.operand right)

/-- A test for a private name stands wherever a comparison does. -/
def writePrivateTest (name value : Piece) (c : Context) : Writer :=
  parensIf (.compare ≤ c.level) do
    name.alone
    write " in "
    value.write { level := .equals, forbidIn := true }

def writeConditional (test yes no : Piece) (c : Context) : Writer :=
  let needed := .conditional ≤ c.level
  let c := if needed then { c with forbidIn := false } else c
  parensIf needed do
    test.write (c.operand .conditional)
    write " ? "
    yes.write (Context.inner .yield)
    write " : "
    no.write (c.operand .yield)

def writeAssignment (mark : String) (target value : Piece) (c : Context) : Writer := do
  let isObject := match target.form with | .objectTarget => true | _ => false
  parensIf ((isObject && (← opensBlock)) || .assign ≤ c.level) do
    target.write (c.within .comma)
    write (" " ++ mark ++ " ")
    value.write (c.within .comma)

def writeSequence (ps : List Piece) (c : Context) : Writer :=
  parensIf (.comma ≤ c.level) (commas (ps.map fun p => p.write (c.operand .lowest)))

def writeAwait (e : Piece) (c : Context) : Writer :=
  parensIf (.unary ≤ c.level) do
    spaceWord
    write "await "
    e.write (c.within .exponent)

def writeYield (delegate : Bool) (e : Option Piece) (c : Context) : Writer :=
  parensIf (.assign ≤ c.level) do
    spaceWord
    write (if delegate then "yield*" else "yield")
    match e with
    | some e =>
      write " "
      e.write (c.within .yield)
    | none => pure ()

def isHole (p : Piece) : Bool := match p.form with | .hole => true | _ => false

/-- More than two elements take a line each; a hole at the end needs a comma of its own. -/
def writeArray (ps : List Piece) : Writer := do
  let tail : Writer := if ps.getLast?.any isHole then write "," else pure ()
  write "["
  if ps.length > 2 then
    deeper do
      between "," (ps.map fun p => do
        newline
        indent
        p.listed)
      tail
    newline
    indent
  else
    commas (ps.map Piece.listed)
    tail
  write "]"

/-- More than one property take a line each. -/
def writeProperties (ps : List Piece) : Writer :=
  match ps with
  | [] => write "\x7b\x7d"
  | [p] => do
    write "\x7b "
    p.listed
    write " \x7d"
  | ps => do
    write "\x7b"
    deeper (between "," (ps.map fun p => do
      newline
      indent
      p.listed))
    newline
    indent
    write "\x7d"

/-- An object with comments before it stands in parentheses together with them. -/
def writeObject (n : Node) (ps : List Piece) : Writer := do
  let remarked ← hasComment n.span.start
  parensIf (remarked || (← opensBlock)) do
    if remarked then
      commentsAt n.span.start
      indent
    writeProperties ps

/-- A property whose value is the variable of its name needs no value. -/
def isShorthand (kind : PropertyKind) (key value : Node) : Bool :=
  match key.form, value.bare.form with
  | .identifier k, .identifier v => if k = "__proto__" then kind = .shorthand else k = v
  | _, _ => false

/-- A number as key is computed unless it is plain. -/
def writeProperty (kind : PropertyKind) (key value : Piece) : Writer := do
  unless isShorthand kind key.node value.node do
    match key.form with
    | .number x =>
      if isNegative x || x.isInf then
        write "["
        key.listed
        write "]"
      else key.listed
    | _ => key.listed
    write ": "
  value.listed

end LiveLoader.Layout
