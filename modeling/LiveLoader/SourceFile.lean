import LiveLoader.Filter

/-!
# Source files

Which files are loaded: sources of the framework by their typed extensions, and other scripts.
Files that belong to packages of others never are.
-/

namespace LiveLoader.SourceFile

private def letters (s : String) : Place := ⟨s.toList, false⟩
private def optionalLetters (s : String) : Place := ⟨s.toList, true⟩

/-- Accepts `.ts`, `.mts` and `.cts`. -/
def frameworkFilter : Filter where
  ignoreCase := false
  places := [letters ".", optionalLetters "cm", letters "t", letters "s"]

/-- Accepts `.js`, `.ts`, with `c` or `m` in front and `x` behind. -/
def scriptFilter : Filter where
  ignoreCase := false
  places := [letters ".", optionalLetters "cm", letters "jt", letters "s", optionalLetters "x"]

def isFramework (p : Path) : Bool := !p.isVendored && frameworkFilter.acceptPath p

def isScript (p : Path) : Bool := !p.isVendored && scriptFilter.acceptPath p

end LiveLoader.SourceFile
