import LiveLoader.Layout.Expression

/-!
# Patterns and parameters

Patterns stay on one line. A pattern that declares is set with blanks inside its braces; one that
assigns is not.
-/

namespace LiveLoader.Layout

open Syntax Writer

def isRest (p : Piece) : Bool := match p.form with | .rest => true | _ => false

def writeRest (p : Piece) : Writer := do
  write "..."
  p.listed

def writeDefaulted (p value : Piece) : Writer := do
  p.listed
  write " = "
  value.listed

def writeObjectTarget (ps : List Piece) : Writer := do
  write "\x7b"
  commas (ps.map Piece.listed)
  write "\x7d"

/-- The elements before a rest, with the commas that a rest or a last hole asks for. -/
def writeElements (ps : List Piece) (hasRest : Bool) : Writer := do
  commas (ps.map Piece.listed)
  if !ps.isEmpty && (hasRest || ps.getLast?.any isHole) then write ","

def writeArrayPattern (ps : List Piece) : Writer := do
  let (rest, elements) := ps.partition isRest
  write "["
  writeElements elements (!rest.isEmpty)
  rest.forM fun r => do
    write " "
    r.listed
  write "]"

def writeArrayTarget (ps : List Piece) : Writer := do
  let (rest, elements) := ps.partition isRest
  write "["
  writeElements elements (!rest.isEmpty)
  rest.forM fun r => do
    unless elements.isEmpty do write " "
    r.listed
  write "]"

/-- What a property of a pattern binds, without its default. -/
def boundNode (n : Node) : Node :=
  match n with
  | .mk .defaulted _ [p, _] => p
  | n => n

def writePair (key value : Piece) : Writer := do
  key.listed
  write ": "
  value.listed

/-- A property that binds its own name needs no second one. -/
def writeBindingProperty (key value : Piece) : Writer :=
  let short : Bool := match key.form, (boundNode value.node).form with
    | .identifier k, .identifier v => k = v
    | _, _ => false
  if short then value.listed else writePair key value

/-- Names and their members stand bare behind the mark, also when they are called. -/
def standsBare : Node → Bool
  | .mk (.call _ _) _ (callee :: _) => standsBare callee
  | .mk (.identifier _) _ _ | .mk (.member _ _) _ _ | .mk (.privateMember _ _) _ _ => true
  | _ => false

def writeDecorator (e : Piece) : Writer := do
  write "@"
  parensIf (!standsBare e.node) e.alone

/-- Decorators with a blank behind each. -/
def writeDecorators (ds : Piece) : Writer :=
  ds.parts.forM fun d => do
    d.alone
    write " "

def modifierWords (m : Modifiers) : List String :=
  (if m.declared then ["declare"] else [])
    ++ m.accessibility.toList
    ++ (if m.isAbstract then ["abstract"] else [])
    ++ (if m.isStatic then ["static"] else [])
    ++ (if m.isOverride then ["override"] else [])
    ++ (if m.isReadonly then ["readonly"] else [])
    ++ (if m.isAccessor then ["accessor"] else [])

def writeModifiers (m : Modifiers) : Writer :=
  (modifierWords m).forM fun w => do
    spaceWord
    write (w ++ " ")

def optionMark (m : Modifiers) : Writer := if m.isOptional then write "?" else pure ()

def writeParam (m : Modifiers) (ds pattern : Piece) : Writer := do
  writeDecorators ds
  writeModifiers m
  pattern.listed

def writeParams (ps : List Piece) : Writer := parens (commas (ps.map Piece.listed))

end LiveLoader.Layout
