import LiveLoader.Path.Basic

/-!
# Dialects

The language of a source text: plain or typed script, with or without markup, as a module, as a
common script or as either. The name of a file tells which one it is written in.
-/

namespace LiveLoader.Syntax

structure Dialect where
  typescript : Bool
  declarations : Bool := false
  jsx : Bool := false
  isModule : Bool := false
  isCommon : Bool := false
  deriving DecidableEq, Repr, Inhabited

namespace Dialect

def script : Dialect := { typescript := false }
def typed : Dialect := { typescript := true }
def scriptModule : Dialect := { script with isModule := true }
def typedModule : Dialect := { typed with isModule := true }

/-- The dialect of an extension; extensions are told apart by case. -/
def ofExtension? (ext : List Char) : Option Dialect :=
  match String.ofList ext with
  | "js" => some script
  | "jsx" => some { script with jsx := true }
  | "mjs" => some scriptModule
  | "cjs" => some { script with isCommon := true }
  | "ts" => some typed
  | "tsx" => some { typed with jsx := true }
  | "mts" => some typedModule
  | "cts" => some { typed with isCommon := true }
  | _ => none

/-- Whether a `d` stands before the extension: before `ts` as one of the two pieces there, before
`mts` and `cts` behind a dot. -/
def marksDeclarations (name : List Char) : Bool :=
  match (Text.pieces '.' name).reverse with
  | ['t', 's'] :: before => (before.take 2).contains ['d']
  | ['m', 't', 's'] :: ['d'] :: before | ['c', 't', 's'] :: ['d'] :: before => !before.isEmpty
  | _ => false

/-- The dialect of a file; one with a name that tells nothing holds a typed module. -/
def ofPath (p : Path) : Dialect :=
  match p.fileName?, p.extension?.bind ofExtension? with
  | some name, some d => { d with declarations := marksDeclarations name }
  | _, _ => typedModule

end Dialect

end LiveLoader.Syntax
