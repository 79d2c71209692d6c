import LiveLoader.Filter
import LiveLoader.Options
import LiveLoader.Routes.Scan

/-!
# The routes module

One module of an application is not read from its file: a load of it is answered with the route
table of the pages that are there at the time.
-/

namespace LiveLoader.Routes

def generate (fs : FileSystem) (options : RoutingOptions) : Build (List Char) := do
  let options := options.resolve fs.workingDirectory
  match options.filePath.parent? with
  | none => throw (.setup ("routes file has no parent: " ++ options.filePath.toString))
  | some dir =>
    let pages ← Build.ofLogged (scan fs options.pagesPath)
    return render (descriptors pages dir) (options.redirectTo.filter (· ≠ []))

end Routes

/-- The routes module as it was configured: which paths it answers, and from what. -/
structure RoutesModule where
  filter : Filter
  options : RoutingOptions
  deriving Repr

namespace RoutesModule

/-- Answers the paths that end, in any case, with the path of the configured file. -/
def configured (options : RoutingOptions) (cwd : Path) : RoutesModule :=
  let options := options.resolve cwd
  ⟨.literal true options.filePath.toSlash, options⟩

def accepts (r : RoutesModule) (path : Path) : Bool := r.filter.acceptPath path

def generate (r : RoutesModule) (fs : FileSystem) : Build (List Char) :=
  Routes.generate fs r.options

end RoutesModule

end LiveLoader
