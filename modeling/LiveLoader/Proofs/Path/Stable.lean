import LiveLoader.Proofs.Path.Climb
import LiveLoader.Routes.Module

/-!
# Paths in their final form

A path that was normalized stays as it is, and one that was seen from an absolute directory is the
same from every other directory. So options that were resolved for one directory are used as they
stand wherever the route table is made.
-/

namespace LiveLoader

namespace Path

theorem isAbsolute_absolutize {cwd : Path} (absolute : cwd.isAbsolute = true) (p : Path) :
    (p.absolutize cwd).isAbsolute = true := by
  unfold absolutize
  split
  case isTrue rooted => rw [isAbsolute_normalize, rooted]
  case isFalse => rw [isAbsolute_normalize, isAbsolute_join absolute]

theorem absolutize_absolutize {cwd : Path} (absolute : cwd.isAbsolute = true) (p other : Path) :
    (p.absolutize cwd).absolutize other = p.absolutize cwd :=
  absolutize_of_normal (isAbsolute_absolutize absolute p) (normalize_absolutize p cwd) other

end Path

theorem RoutingOptions.resolve_resolve {cwd : Path} (absolute : cwd.isAbsolute = true)
    (options : RoutingOptions) (other : Path) :
    (options.resolve cwd).resolve other = options.resolve cwd := by
  simp only [resolve, Path.absolutize_absolutize absolute]

namespace Routes

/-- The text of the route table for options whose paths are taken as they stand. -/
def generateAsGiven (fs : FileSystem) (options : RoutingOptions) : Build (List Char) :=
  match options.filePath.parent? with
  | none => throw (.setup ("routes file has no parent: " ++ options.filePath.toString))
  | some dir => do
    let pages ← Build.ofLogged (scan fs options.pagesPath)
    return render (descriptors pages dir) (options.redirectTo.filter (· ≠ []))

theorem generate_eq (fs : FileSystem) (options : RoutingOptions) :
    generate fs options = generateAsGiven fs (options.resolve fs.workingDirectory) := by
  rfl

end Routes

/-- A normalized path is a root or none, a `..` or none, and names; it is rooted just if the path
was, and normalizing it again changes nothing. From an absolute directory every path has such a form
under a root, which is the same from any other directory, and a routes module that was configured
there makes its table from its paths as they stand. -/
theorem Path.normalize_stable (p : Path) :
    (∃ (up : Bool) (names : List (List Char)), (∀ name ∈ names, IsName name) ∧
      p.normalize.components = (if p.isAbsolute then [.root] else [])
        ++ (if up then [.parent] else []) ++ names.map Component.normal) ∧
    p.normalize.isAbsolute = p.isAbsolute ∧
    p.normalize.normalize = p.normalize ∧
    ∀ cwd : Path, cwd.isAbsolute = true →
      (p.absolutize cwd).isAbsolute = true ∧
      (p.absolutize cwd).normalize = p.absolutize cwd ∧
      (∀ other, (p.absolutize cwd).absolutize other = p.absolutize cwd) ∧
      ∀ (options : RoutingOptions) (fs : FileSystem),
        (options.resolve cwd).resolve fs.workingDirectory = options.resolve cwd ∧
        (RoutesModule.configured options cwd).generate fs =
          Routes.generateAsGiven fs (options.resolve cwd) := by
  have hform : p.normalize.components = (if p.isAbsolute then [.root] else [])
      ++ (if p.normal.up then [.parent] else []) ++ p.normal.names.map Component.normal := by
    rw [components_normalize, Normal.components, rooted_normal]
  refine ⟨⟨_, _, (normalize_eq p).2, hform⟩, isAbsolute_normalize p, normalize_normalize p, ?_⟩
  intro cwd absolute
  have hresolve := RoutingOptions.resolve_resolve absolute
  refine ⟨isAbsolute_absolutize absolute p, normalize_absolutize p cwd,
    absolutize_absolutize absolute p, ?_⟩
  intro options fs
  have hgenerate : (RoutesModule.configured options cwd).generate fs =
      Routes.generate fs (options.resolve cwd) := by rfl
  exact ⟨hresolve options _, by rw [hgenerate, Routes.generate_eq, hresolve]⟩

/-- The path climbs above the root, where its last `..` stays. -/
theorem Path.normalize_stable_trial :
    (Path.absolutize "../../b/./c" "/work").components =
        [.root, .parent, .normal ['b'], .normal ['c']] ∧
      (Path.absolutize "../../b/./c" "/work").absolutize "/other" =
        Path.absolutize "../../b/./c" "/work" :=
  ⟨by decide, ((normalize_stable "../../b/./c").2.2.2 "/work" (by decide)).2.2.1 "/other"⟩

end LiveLoader
