import LiveLoader.Error
import LiveLoader.Layout.Program
import LiveLoader.Lowering.Program
import LiveLoader.Syntax.Parser
import LiveLoader.Text.Blank

/-!
# Transpiling

A source text of any dialect becomes plain script text, file by file. A text with any problem of
syntax is refused; declarations alone give an empty text.
-/

namespace LiveLoader

open Syntax

/-- What a problem of syntax is reported as. -/
def syntaxMessage : String := "unexpected text"

def transpileProgram (d : Dialect) (path : Path) (p : Program) : Result (List Char) :=
  if d.declarations then .ok []
  else match Lowering.lower d p with
    | .ok p => .ok (Layout.render p).toList
    | .error messages => .error (.transformFailure path ("\n".intercalate messages))

def transpile (path : Path) (source : List Char) : Result (List Char) :=
  let d := Dialect.ofPath path
  match read d source with
  | .tree p 0 => transpileProgram d path p
  | _ => .error (.parse path syntaxMessage)

/-- Nothing runs: each line is blank or exports nothing. -/
def isEmptyModule (code : List Char) : Bool :=
  (Text.lines code).all fun line =>
    let t := Text.trim line
    t.isEmpty || t = "export \x7b\x7d;".toList

end LiveLoader
