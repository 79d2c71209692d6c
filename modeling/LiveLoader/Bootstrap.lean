import LiveLoader.Error
import LiveLoader.Instrument
import LiveLoader.Outline
import LiveLoader.Syntax.Parser
import LiveLoader.Text.Splice

/-!
# Keeping the started application

A statement that starts the application is rewritten so that the application it gives can be found
and disposed of later: the call is wrapped in a promise that stores it.
-/

namespace LiveLoader

open Syntax

namespace Bootstrap

/-- The calls of a promise that give the value on. -/
def promiseSteps : List String := ["then", "catch", "finally"]

def startsApplication (callee : Node) : Bool :=
  callee.calleeName?.any OutlineNode.isBootstrapName

/-- The call that starts the application, reached through waiting, parentheses and the steps of a
promise. -/
def entryCall? : Node → Option Node
  | .mk (.call optional pure) span (callee :: args) =>
    if startsApplication callee then some (.mk (.call optional pure) span (callee :: args))
    else match callee with
      | .mk (.member name _) _ [object] =>
        if name ∈ promiseSteps then entryCall? object else none
      | _ => none
  | .mk .await _ [e] => entryCall? e
  | .mk .paren _ [e] => entryCall? e
  | _ => none

mutual

/-- The places of the starting calls of all statements; nothing is looked for inside a statement
that has one. -/
def calls : Node → List Span
  | .mk .expressionStatement _ [e] =>
    match entryCall? e with
    | some call => [call.span]
    | none => calls e
  | .mk _ _ children => callsOf children

def callsOf : List Node → List Span
  | [] => []
  | n :: ns => calls n ++ callsOf ns

end

def wrap (call : List Char) : List Char :=
  "Promise.resolve(".toList ++ call
    ++ (").then((ref) => \x7b window." ++ Instrument.applicationGlobal ++ " = ref; return ref; \x7d)").toList

/-- Wraps the starting calls of a program with the given source text. -/
def wrapCalls (p : Program) (source : List Char) : List Char :=
  Text.splice source ((callsOf p.body).map fun span => ⟨span, wrap (Text.slice source span)⟩)

def rewrite (path : Path) (source : List Char) : Result (List Char) :=
  match read (Dialect.ofPath path) source with
  | .gaveUp _ => .error (.parse path "unrecoverable syntax error")
  | .tree p _ => .ok (wrapCalls p source)

end Bootstrap

end LiveLoader
