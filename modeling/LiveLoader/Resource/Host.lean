import LiveLoader.FileSystem.Basic
import LiveLoader.Logged
import LiveLoader.Text.Expansion
import LiveLoader.Text.Shown

/-!
# Resources of components

The host reads the templates and stylesheets that components point at and runs styles through a
transform. Reading is strict: what cannot be read is a failure. Transforming is lenient: a style
that fails becomes empty and the failure goes to the log.
-/

namespace LiveLoader

/-- Turns a stylesheet, known by an id, into plain CSS. -/
abbrev StylesheetTransform := (css id : List Char) → Result (List Char)

namespace StylesheetTransform

def unchanged : StylesheetTransform := fun css _ => .ok css

end StylesheetTransform

inductive ResourceKind where
  | style | template
  deriving DecidableEq, Repr

/-- Where a resource comes from: a file of its own, or the text of the file that declares it. -/
structure ResourceContext where
  kind : ResourceKind
  file : Option Path
  declaredIn : Path
  deriving DecidableEq, Repr

structure ResourceHost where
  /-- Styles are transformed only if there is one. -/
  stylesExtension : Option (List Char)
  stylesheets : StylesheetTransform

namespace ResourceHost

/-- A host for an extension as it was configured; an empty one is none. -/
def configured (ext : Option (List Char)) (stylesheets : StylesheetTransform) : ResourceHost :=
  ⟨ext.filter (· ≠ []), stylesheets⟩

def read (fs : FileSystem) (file : Path) : Result (List Char) :=
  let file := file.normalize
  match fs.readText file with
  | .ok text => .ok text
  | .error _ => .error (.resourceNotFound file)

/-- The ending of the files whose name gives way to the extension of styles. -/
def typedEnding : List Char := ".ts".toList

/-- What a stylesheet is known by: its file, or the file that declares it under the extension of
styles. -/
def stylesheetName (context : ResourceContext) (ext : List Char) : List Char :=
  match context.file with
  | some file => file.text
  | none =>
    match Text.dropEnd? typedEnding context.declaredIn.text with
    | some front => front ++ Text.Expansion.expand typedEnding ('.' :: ext)
    | none => context.declaredIn.text

def stylesheetId (context : ResourceContext) (ext : List Char) : List Char :=
  stylesheetName context ext ++ "?direct".toList

/-- The transformed text of a style; other resources, and styles where no extension is set, are not
transformed. -/
def transform (host : ResourceHost) (text : List Char) (context : ResourceContext) :
    Logged (Option (List Char)) :=
  match context.kind, host.stylesExtension with
  | .style, some ext =>
    match host.stylesheets text (stylesheetId context ext) with
    | .ok css => pure (some css)
    | .error e => ⟨some [], [.error e.message]⟩
  | _, _ => pure none

def describe (host : ResourceHost) : List Char :=
  let ext := match host.stylesExtension with
    | some ext => "Some(".toList ++ Text.Shown.text ext ++ [')']
    | none => "None".toList
  "ResourceHost \x7b inline_styles_extension: ".toList ++ ext ++ ", .. \x7d".toList

end ResourceHost

end LiveLoader
