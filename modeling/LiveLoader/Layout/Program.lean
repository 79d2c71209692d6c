import LiveLoader.Layout.Declaration

/-!
# Programs

Ties the layouts of all forms together and writes whole programs. Markup has no layout.
-/

namespace LiveLoader.Layout

open Syntax Writer

def writeExpression (n : Node) (ps : List Piece) (c : Context) : Writer :=
  match n.form, ps with
  | .identifier name, _ => do
    spaceWord
    write name
  | .privateName name, _ => write ("#" ++ name)
  | .number x, _ => writeNumber x c
  | .bigInt v, _ => do
    spaceWord
    write (toString v ++ "n")
  | .string us, _ => write (stringText us)
  | .boolean b, _ => do
    spaceWord
    write (if b then "true" else "false")
  | .null, _ => do
    spaceWord
    write "null"
  | .this, _ => do
    spaceWord
    write "this"
  | .super, _ => do
    spaceWord
    write "super"
  | .regex pattern flags, _ => writeRegex pattern flags
  | .metaProperty text, _ => do
    spaceWord
    write text
  | .template parts, values => writeTemplate parts values
  | .array, ps => writeArray ps
  | .spread, [e] => do
    write "..."
    e.listed
  | .object, ps => writeObject n ps
  | .property kind, [key, value] =>
    match kind with
    | .init | .shorthand => writeProperty kind key value
    | .method => writeObjectMethod "" key value
    | .get => writeObjectMethod "get " key value
    | .set => writeObjectMethod "set " key value
  | .computed, [e] => do
    write "["
    e.listed
    write "]"
  | .function info, [name, params, body] => writeFunction info name params body
  | .arrow info, [params, body] => writeArrow info params body c
  | .classDef info, [ds, name, superclass, implemented, members] =>
    writeClass info ds name superclass implemented members
  | .unary op, [e] => writeUnary op e c
  | .update up before, [e] => writeUpdate up before e c
  | .binary op, [l, r] =>
    if op = .in && isPrivateName l.node then writePrivateTest l r c else writeBinary op l r c
  | .conditional, [test, yes, no] => writeConditional test yes no c
  | .assignment mark, [target, value] => writeAssignment mark target value c
  | .sequence, ps => writeSequence ps c
  | .member name optional, [object] => writeMember name optional object c
  | .privateMember name optional, [object] => writePrivateMember name optional object c
  | .index optional, [object, index] => writeIndex optional object index c
  | .call optional pure?, callee :: args => writeCall n optional pure? callee args c
  | .new pure?, callee :: args => writeNew n pure? callee args c
  | .importCall phase, args => writeImportCall n phase args c
  | .taggedTemplate, [tag, t] => do
    tag.write (Context.inner .suffixed)
    t.alone
  | .chain, [e] => parensIf (.suffixed ≤ c.level) (e.write c)
  | .paren, [e] => e.write c
  | .await, [e] => writeAwait e c
  | .yield delegate, ps => writeYield delegate ps.head? c
  | .decorator, [e] => writeDecorator e
  | .params, ps => writeParams ps
  | .param m, [ds, p] => writeParam m ds p
  | .objectPattern, ps => spacedBraces (ps.map Piece.listed)
  | .arrayPattern, ps => writeArrayPattern ps
  | .bindingProperty, [key, value] => writeBindingProperty key value
  | .targetProperty shorthand, [key, value] => if shorthand then value.listed else writePair key value
  | .defaulted, [p, value] => writeDefaulted p value
  | .rest, [p] => writeRest p
  | .objectTarget, ps => writeObjectTarget ps
  | .arrayTarget, ps => writeArrayTarget ps
  | .typeText text, _ => write text
  | .typeDecl name, _ => write ("interface " ++ name ++ " \x7b\x7d")
  | _, _ => pure ()

def writeNode (n : Node) (ps : List Piece) (c : Context) : Writer :=
  match n.form, ps with
  | .directive raw, _ => do
    write (directiveText raw)
    endStatement
  | .expressionStatement, [e] => do
    markStatement
    e.alone
    endStatement
  | .empty, _ => endStatement
  | .debugger, _ => do
    spaceWord
    write "debugger"
    endStatement
  | .block, ps => do
    writeBlock ps
    newline
  | .functionBody, ps => writeFunctionBody n ps
  | .variable keyword declared, ps => writeVariables keyword declared ps c
  | .declarator, [p, value] => writeDeclarator p value c
  | .ifElse, [test, yes, no] => writeIf test yes no
  | .forLoop, [first, test, update, body] => writeForLoop first test update body
  | .forIn, [left, right, body] => writeForIn left right body
  | .forOf isAwait, [left, right, body] => writeForOf isAwait left right body
  | .whileLoop, [test, body] => writeWhile test body
  | .doWhile, [body, test] => writeDo body test
  | .switch, value :: cases => writeSwitch value cases
  | .switchCase, test :: ps => writeCase test ps
  | .return, ps => writeArgument "return" (ps.find? (!·.isAbsent))
  | .throw, [e] => writeArgument "throw" (some e)
  | .break label, _ => writeJump "break" label
  | .continue label, _ => writeJump "continue" label
  | .tryBlock, [body, handler, finalizer] => writeTry body handler finalizer
  | .catchClause, [param, body] => writeCatch n param body
  | .labeled label, [body] => writeLabeled label body
  | .withObject, [e, body] => writeWith e body
  | .method kind m, [ds, key, f] => writeMethod kind m ds key f
  | .field m, [ds, key, value] => writeField m ds key value
  | .staticBlock, ps => writeStaticBlock ps
  | .typeAlias, [name, type] => writeTypeAlias name type
  | .moduleDecl _, [name, body] => writeNamespace name body
  | .enumDecl _, name :: members => writeDeclaredEnum name members
  | .enumMember, [key, value] => writeEnumMember key value
  | .importDecl typeOnly phase, [specifiers, source, attributes] =>
    writeImport typeOnly phase specifiers source attributes
  | .importDefault, [name] => name.alone
  | .importNamespace, [name] => do
    write "* as "
    name.alone
  | .importNamed typeOnly, [first, second] => do
    if typeOnly then write "type "
    writeNames first second
  | .attribute, [key, value] => writePair key value
  | .exportDecl, [decl] => writeExportDecl decl
  | .exportDefault, [value] => writeExportDefault value
  | .exportNamed typeOnly, [specifiers, source, attributes] =>
    writeExportNamed typeOnly specifiers source attributes
  | .exportSpecifier typeOnly, [first, second] => writeExportSpecifier typeOnly first second
  | .exportAll typeOnly, [name, source, attributes] =>
    writeExportAll typeOnly name source attributes
  | _, _ => writeExpression n ps c

/-- The piece of a tree. -/
def pieceOf : Node → Piece := Node.fold fun n ps => .mk n (writeNode n ps) ps

/-- Writes a program: its interpreter, its statements and its last comments. -/
def writeProgram (p : Program) : Writer := do
  match p.hashbang with
  | some line => write ("#!" ++ line ++ "\n")
  | none => pure ()
  writeBody (p.body.map pieceOf)
  commentsAt p.length

def render (p : Program) : String :=
  (StateT.run (writeProgram p) ({ comments := p.comments } : Sheet)).2.text

end LiveLoader.Layout
