import LiveLoader.Layout.Statement

/-!
# Functions, classes and modules

Functions with their parameters and bodies, classes with one member on each line, and the imports and
exports of modules.
-/

namespace LiveLoader.Layout

open Syntax Writer

/-- A body behind a blank, or a semicolon instead of it. -/
def writeBodyOrEnd (body : Piece) : Writer :=
  if body.isAbsent then write ";"
  else do
    write " "
    body.alone

def writeFunction (info : FunctionInfo) (name params body : Piece) : Writer := do
  parensIf (info.place = .expression && (info.inParens || (← opensDeclaration))) do
    if info.effectFree && info.place = .expression then writeMark effectFreeMark
    spaceWord
    write ((if info.declared then "declare " else "") ++ (if info.isAsync then "async " else "")
      ++ "function" ++ (if info.isGenerator then "* " else ""))
    unless name.isAbsent do
      spaceWord
      name.alone
    params.alone
    writeBodyOrEnd body

/-- Words before the key of a method. -/
def functionWords (info : FunctionInfo) : String :=
  (if info.isAsync then "async " else "") ++ (if info.isGenerator then "*" else "")

/-- A method of an object behind its kind; its body may be missing. -/
def writeObjectMethod (words : String) (key function : Piece) : Writer :=
  match function.form, function.parts with
  | .function info, [_, params, body] => do
    write (words ++ functionWords info)
    key.listed
    params.alone
    unless body.isAbsent do
      write " "
      body.alone
  | _, _ => pure ()

def writeArrow (info : ArrowInfo) (params body : Piece) (c : Context) : Writer :=
  parensIf (info.inParens || .assign ≤ c.level) do
    if info.effectFree then writeMark effectFreeMark
    if info.isAsync then
      spaceWord
      write "async "
    params.alone
    write " => "
    match body.form, body.parts with
    | .expressionStatement, [e] =>
      markArrow
      e.write (c.within .comma)
    | _, _ => body.alone

def kindWord : MethodKind → String
  | .get => "get "
  | .set => "set "
  | .method | .constructor => ""

def writeMethod (kind : MethodKind) (m : Modifiers) (ds key function : Piece) : Writer :=
  match function.form, function.parts with
  | .function info, [_, params, body] => do
    writeDecorators ds
    writeModifiers m
    write (kindWord kind ++ functionWords info)
    key.listed
    optionMark m
    params.alone
    writeBodyOrEnd body
  | _, _ => pure ()

def writeField (m : Modifiers) (ds key value : Piece) : Writer := do
  writeDecorators ds
  writeModifiers m
  key.listed
  optionMark m
  unless value.isAbsent do
    write " = "
    value.listed

def writeStaticBlock (ps : List Piece) : Writer := do
  write "static "
  bracesUnless ps.isEmpty (writeStatements ps)

def isField (p : Piece) : Bool :=
  match p.form with
  | .field _ | .indexSignature => true
  | _ => false

/-- Members on lines of their own, with their comments before them; a field ends with a semicolon. -/
def writeMembers (members : List Piece) : Writer :=
  bracesUnless members.isEmpty (members.forM fun m => do
    commentsAt m.span.start
    indent
    m.alone
    if isField m then endStatement else newline)

def writeClass (info : ClassInfo) (ds name superclass implemented members : Piece) : Writer := do
  parensIf (!info.isDeclaration && (← opensDeclaration)) do
    writeDecorators ds
    spaceWord
    write ((if info.declared then "declare " else "") ++ (if info.isAbstract then "abstract " else "")
      ++ "class")
    unless name.isAbsent do
      write " "
      name.alone
    unless superclass.isAbsent do
      write " extends "
      superclass.write (Context.inner .suffixed)
    unless implemented.isAbsent do
      write " implements "
      commas (implemented.parts.map Piece.alone)
    write " "
    writeMembers members.parts

def writeTypeAlias (name type : Piece) : Writer := do
  write "type "
  name.alone
  write " = "
  type.alone

/-- The name of a namespace and its body; the name of one that is nested follows a dot. -/
def writeNamespace (name body : Piece) : Writer := do
  name.alone
  match body.form, body.parts with
  | .moduleDecl _, _ =>
    write "."
    body.alone
  | .block, ps =>
    write " "
    writeBlock ps
  | _, _ => pure ()

def writeEnumMember (key value : Piece) : Writer := do
  key.alone
  unless value.isAbsent do
    write " = "
    value.listed

def writeDeclaredEnum (name : Piece) (members : List Piece) : Writer := do
  write "declare enum "
  name.alone
  write " "
  bracesUnless members.isEmpty (members.forM fun m => do
    indent
    m.alone
    write ",\n")

/-- The attributes behind a source, with the word that introduces them. -/
def writeAttributes (attributes : Piece) : Writer :=
  match attributes.form with
  | .attributes word => do
    write (" " ++ word ++ " ")
    spacedBraces (attributes.parts.map Piece.alone)
  | _ => pure ()

/-- The source of a module with its attributes, and the end of the statement. -/
def writeSource (source attributes : Piece) : Writer := do
  source.alone
  writeAttributes attributes
  endStatement

/-- The name under which something is exported, as a word or as a text. -/
def nameUnits (n : Node) : List Nat :=
  match n.form with
  | .identifier w => unitsOfText w
  | .string us => us
  | _ => []

/-- Two names with `as` between them, or one if they are the same. -/
def writeNames (first second : Piece) : Writer := do
  first.alone
  unless nameUnits first.node = nameUnits second.node do
    write " as "
    second.alone

def isNamed (p : Piece) : Bool := match p.form with | .importNamed _ => true | _ => false

/-- The word for a phase or for types behind `import`. -/
def importWords (typeOnly : Bool) (phase : Option String) : String :=
  "import" ++ (if typeOnly then " type" else "") ++ (phase.map (" " ++ ·)).getD ""

/-- An import of nothing keeps the text of its source as it is. -/
def writeEmptyImport (words : String) (source attributes : Piece) : Writer := do
  write (words ++ " \x7b\x7d from \"" ++ textOfUnits (nameUnits source.node) ++ "\"")
  writeAttributes attributes
  endStatement

def writeImport (typeOnly : Bool) (phase : Option String) (specifiers source attributes : Piece) :
    Writer := do
  let words := importWords typeOnly phase
  if specifiers.isAbsent then
    write (words ++ " ")
    writeSource source attributes
  else if specifiers.parts.isEmpty then writeEmptyImport words source attributes
  else
    let (named, single) := specifiers.parts.partition isNamed
    write (words ++ " ")
    commas (single.map Piece.alone
      ++ if named.isEmpty then [] else [spacedBraces (named.map Piece.alone)])
    write " from "
    writeSource source attributes

def writeExportNamed (typeOnly : Bool) (specifiers source attributes : Piece) : Writer := do
  write (if typeOnly then "export type " else "export ")
  spacedBraces (specifiers.parts.map Piece.alone)
  if source.isAbsent then endStatement
  else
    write " from "
    writeSource source attributes

/-- A name in an export, with its comments before it. -/
def writeExportName (p : Piece) : Writer := do
  nameComments p.span.start
  p.alone

def writeExportSpecifier (typeOnly : Bool) (first second : Piece) : Writer := do
  if typeOnly then write "type "
  writeExportName first
  unless nameUnits first.node = nameUnits second.node do
    write " as "
    writeExportName second

def writeExportAll (typeOnly : Bool) (name source attributes : Piece) : Writer := do
  write (if typeOnly then "export type *" else "export *")
  unless name.isAbsent do
    write " as "
    writeExportName name
  write " from "
  writeSource source attributes

def writeExportDecl (decl : Piece) : Writer := do
  write "export "
  decl.alone
  match decl.form with
  | .variable .. => endStatement
  | _ => newline

/-- A declared function or class ends with its body. -/
def isDeclaration (p : Piece) : Bool :=
  match p.form with
  | .function info => info.place = .declaration
  | .classDef info => info.isDeclaration
  | _ => false

def writeExportDefault (value : Piece) : Writer := do
  write "export default "
  if isDeclaration value then
    value.alone
    newline
  else
    markDefault
    value.listed
    endStatement

end LiveLoader.Layout
