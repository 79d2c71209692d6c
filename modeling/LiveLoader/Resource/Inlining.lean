import LiveLoader.Resource.Metadata
import LiveLoader.Resource.Host
import LiveLoader.Text.Quoted
import LiveLoader.Text.Splice

/-!
# Inlining resources

A property that names a template or stylesheets is replaced by one that holds their text; inline
styles are replaced if they are transformed.
-/

namespace LiveLoader.Resource

open Text

/-- The replacements for a list of properties, and the files that were read for them in order, each
with the digest of its text. -/
structure Inlined where
  replacements : List Replacement := []
  files : List (Path × String) := []
  deriving Repr

namespace Inlined

def append (a b : Inlined) : Inlined := ⟨a.replacements ++ b.replacements, a.files ++ b.files⟩

def concat (parts : List Inlined) : Inlined := parts.foldr append {}

end Inlined

def fileOf (component : Path) (url : List Char) : Path :=
  ((component.parent?.getD ⟨[]⟩).join ⟨url⟩).normalize

def templateText (template : List Char) : List Char :=
  "template: ".toList ++ Quoted.encode template

def stylesText (styles : List (List Char)) : List Char :=
  "styles: [".toList ++ ((styles.map Quoted.encode).intersperse ", ".toList).flatten ++ [']']

/-- A file that was read: where it is, and its text. -/
def readFile (fs : FileSystem) (component : Path) (url : List Char) :
    Build (Path × List Char) :=
  let file := fileOf component url
  (fun text => (file, text)) <$> Build.ofResult (ResourceHost.read fs file)

/-- A stylesheet file and its text as the host transforms it. -/
def readStyle (host : ResourceHost) (fs : FileSystem) (component : Path) (url : List Char) :
    Build ((Path × List Char) × List Char) := do
  let (file, text) ← readFile fs component url
  let css ← Build.ofLogged (host.transform text ⟨.style, some file, component⟩)
  return ((file, text), css.getD text)

section

variable (digest : List Char → String) (host : ResourceHost) (fs : FileSystem) (component : Path)

def fingerprints (files : List (Path × List Char)) : List (Path × String) :=
  files.map fun (file, text) => (file, digest text)

/-- The replacement for one property; of a template only the first name counts. -/
def inlineProperty (p : MetadataProperty) : Build Inlined :=
  match p.kind, p.values with
  | .templateUrl, [] => return {}
  | .templateUrl, url :: _ => do
    let (file, text) ← readFile fs component url
    return ⟨[⟨p.span, templateText text⟩], fingerprints digest [(file, text)]⟩
  | .styleUrls, urls => do
    let styles ← urls.mapM (readStyle host fs component)
    return ⟨[⟨p.span, stylesText (styles.map (·.2))⟩], fingerprints digest (styles.map (·.1))⟩
  | .inlineStyles, texts => do
    let styles ← texts.mapM fun text => do
      let css ← Build.ofLogged (host.transform text ⟨.style, none, component⟩)
      return (text, css)
    if styles.any (·.2.isSome) then
      return ⟨[⟨p.span, stylesText (styles.map fun (text, css) => css.getD text)⟩], []⟩
    else return {}

/-- Inlines the properties of a component in order; the first file that cannot be read ends it. -/
def inlineAll (ps : List MetadataProperty) : Build Inlined :=
  Inlined.concat <$> ps.mapM (inlineProperty digest host fs component)

end

end LiveLoader.Resource
