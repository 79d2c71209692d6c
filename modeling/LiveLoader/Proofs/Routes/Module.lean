import LiveLoader.Proofs.Filter
import LiveLoader.Routes.Module

/-!
# What the routes module answers

The filter of the routes module is written from the path of the configured file, whatever characters
that path has. Reading the written filter gives what the module asks: whether a path ends, up to
case, with the path of the file.
-/

namespace LiveLoader.RoutesModule

open Text

variable {options : RoutingOptions} {cwd : Path}

theorem accepts_configured_iff {q : Path} :
    (configured options cwd).accepts q = true ↔
      ∃ ending, ending <:+ q.toSlash ∧
        AlikeUpToCase ending (options.filePath.absolutize cwd).toSlash :=
  Filter.accept_literal_iff

/-- A path that ends with a case variant of the file's own path is accepted. -/
theorem accepts_of_alike {name : List Char}
    (alike : AlikeUpToCase name (options.filePath.absolutize cwd).text) (front : List Char) :
    (configured options cwd).accepts ⟨front ++ name⟩ = true := by
  have ends : exchange '\\' '/' name <:+ Path.toSlash ⟨front ++ name⟩ :=
    (List.suffix_append front name).map _
  exact accepts_configured_iff.mpr ⟨_, ends, alike.exchange⟩

/-- The last characters of an accepted path, as many as the file's path has, are alike to those. -/
theorem alike_of_accepts {q : Path} (accepted : (configured options cwd).accepts q = true)
    {front ending : List Char} (hq : q.toSlash = front ++ ending)
    (hlength : ending.length = (options.filePath.absolutize cwd).toSlash.length) :
    AlikeUpToCase ending (options.filePath.absolutize cwd).toSlash := by
  obtain ⟨e, ⟨t, ht⟩, alike⟩ := accepts_configured_iff.mp accepted
  have heq : e = ending :=
    List.append_inj_right' (ht.trans hq) (alike.length_eq.trans hlength.symm)
  exact heq ▸ alike

/-- The filter is the path of the configured file, written so that each of its characters stands for
itself, and it is read as it was meant. It accepts the paths that end, up to case, with the path of
the file: so the file itself in any case, and no path whose last characters are others. -/
theorem accepts_iff_ending (options : RoutingOptions) (cwd q : Path) :
    let file := options.filePath.absolutize cwd
    let r := configured options cwd
    r.filter.text = "(?i)".toList ++ Filter.escape file.toSlash ++ ['$'] ∧
    Filter.read? r.filter.text = some r.filter ∧
    (r.accepts q = true ↔
      ∃ ending, ending <:+ q.toSlash ∧ AlikeUpToCase ending file.toSlash) ∧
    (r.accepts file = true ∧
      ∀ front name, AlikeUpToCase name file.text → r.accepts ⟨front ++ name⟩ = true) ∧
    (∀ front ending, q.toSlash = front ++ ending → ending.length = file.toSlash.length →
      ¬ AlikeUpToCase ending file.toSlash → r.accepts q = false) := by
  intro file r
  refine ⟨Filter.text_literal true file.toSlash, Filter.read?_text_literal file.toSlash,
    accepts_configured_iff, ⟨accepts_of_alike (.refl file.text) [],
      fun front name alike => accepts_of_alike alike front⟩, ?_⟩
  intro front ending hq hlength differs
  exact Bool.eq_false_iff.mpr fun accepted => differs (alike_of_accepts accepted hq hlength)

/-- The special characters of a path stand for themselves, and a Kelvin sign is a letter `k`. -/
theorem accepts_iff_ending_trial :
    let r := configured { filePath := "src/a+[k].ts" } "/app"
    r.accepts "C:\\APP\\Src/A+[\u212a].TS" = true ∧ r.accepts "/w/app/src/aak.ts" = false := by
  have h := accepts_iff_ending { filePath := "src/a+[k].ts" } "/app"
  constructor
  · obtain ⟨-, -, accepted, -⟩ := h "C:\\APP\\Src/A+[\u212a].TS"
    exact accepted.mpr ⟨"/APP/Src/A+[\u212a].TS".toList, by decide +kernel, by decide +kernel⟩
  · obtain ⟨-, -, -, -, refused⟩ := h "/w/app/src/aak.ts"
    exact refused [] "/w/app/src/aak.ts".toList (by decide +kernel) (by decide +kernel)
      (by decide +kernel)

end LiveLoader.RoutesModule
