import LiveLoader.Classification
import LiveLoader.Text.Pieces

/-!
# Reload snippets

Code that is sent to the browser ends with a snippet that says how it is reloaded. Code that starts
the application also disposes the running one, and loads the framework's compiler first.
-/

namespace LiveLoader

open Text

namespace Instrument

/-- The global that holds the running application. -/
def applicationGlobal : String := "ngRef"

def entrySnippet : String :=
  "\nif (import.meta.hot) \x7b\n  import.meta.hot.accept();\n  import.meta.hot.dispose(() => \x7b\n    window." ++ applicationGlobal ++ " && window." ++ applicationGlobal
    ++ ".destroy();\n  \x7d);\n\x7d\n"

def decoratedSnippet : String :=
  "\nif (import.meta.hot) \x7b\n  import.meta.hot.accept((\x7b module \x7d) => \x7b\n    if (module && module.__hmrUpdate) \x7b\n      module.__hmrUpdate();\n    \x7d\n  \x7d);\n\x7d\n"

def plainSnippet : String :=
  "\nif (import.meta.hot) \x7b\n  import.meta.hot.accept();\n\x7d\n"

def snippet : Classification → String
  | .entryBootstrap => entrySnippet
  | .frameworkDecorated => decoratedSnippet
  | .plainModule => plainSnippet

def compilerImport : String := "import '@angular/compiler'"

/-- The import in either kind of quotes. -/
def importsCompiler (code : List Char) : Bool :=
  contains compilerImport.toList code || contains (exchange '\'' '"' compilerImport.toList) code

end Instrument

open Instrument in
/-- Adds what the classification asks for. -/
def instrument (code : List Char) (c : Classification) : List Char :=
  let front :=
    if c = .entryBootstrap && !importsCompiler code then (compilerImport ++ ";\n").toList else []
  front ++ code ++ (snippet c).toList

end LiveLoader
