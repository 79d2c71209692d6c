import LiveLoader.Path.Relative
import LiveLoader.Routes.Pattern
import LiveLoader.Text.Quoted

/-!
# The route table

A page becomes a descriptor, and the descriptors become the text of a script module that exports
their routes.
-/

namespace LiveLoader.Routes

open Text

/-- A source file that is reached under a key. -/
structure Page where
  key : List Char
  file : Path
  deriving DecidableEq, Repr

structure Descriptor where
  urlPattern : List Char
  /-- Imported on demand; names the file without extension. -/
  componentImport : List Char
  /-- Imported at once; names the file. -/
  metaImport : List Char
  metaBinding : List Char
  order : Nat
  deriving DecidableEq, Repr

/-- How a module in `dir` names `file`: always by a relative specifier. -/
def specifier (dir file : Path) : List Char :=
  let rel := (Path.relative dir file).toSlash
  if rel = "..".toList || "../".toList.isPrefixOf rel then rel else "./".toList ++ rel

def Descriptor.ofPage (dir : Path) (order : Nat) (page : Page) : Descriptor where
  urlPattern := Routes.urlPattern page.key
  componentImport := specifier dir (page.file.withExtension [])
  metaImport := specifier dir page.file
  metaBinding := 'r' :: (toString order).toList
  order := order

def descriptors (pages : List Page) (dir : Path) : List Descriptor :=
  pages.mapIdx fun i p => Descriptor.ofPage dir i p

def Descriptor.importLine (d : Descriptor) : List Char :=
  "import \x7brouterMeta as ".toList ++ d.metaBinding ++ "\x7d from ".toList
    ++ Quoted.encode d.metaImport ++ ";\n".toList

def Descriptor.routeLine (d : Descriptor) : List Char :=
  "  \x7b path: ".toList ++ Quoted.encode d.urlPattern ++ ", loadComponent: () => import(".toList
    ++ Quoted.encode d.componentImport ++ "), ...".toList ++ d.metaBinding ++ " \x7d,\n".toList

def redirectLine (target : List Char) : List Char :=
  "  \x7b path: '', redirectTo: ".toList ++ Quoted.encode target ++ ", pathMatch: 'full' \x7d,\n".toList

/-- The imports, a blank line if there are any, and the exported list with the redirect first. -/
def render (ds : List Descriptor) (redirectTo : Option (List Char)) : List Char :=
  ds.flatMap Descriptor.importLine
    ++ (if ds.isEmpty then [] else ['\n'])
    ++ "export const routes = [\n".toList
    ++ (redirectTo.map redirectLine).getD []
    ++ ds.flatMap Descriptor.routeLine
    ++ "];\n".toList

end LiveLoader.Routes
