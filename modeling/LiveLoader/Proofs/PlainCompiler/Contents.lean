import LiveLoader.Proofs.PlainCompiler.Answers
import Mathlib.Algebra.GroupWithZero.Nat

/-!
# What a program holds

The analysis comes to a result whatever the files are. Afterwards the program has a source for each root
that can be read, and of the sources with resources each is either a component whose resources are all
there or misses one of them. Nothing is left of an earlier analysis.
-/

namespace LiveLoader.PlainCompiler

open Resource

namespace Program

theorem mem_components {p : Program} {path : Path} :
    path ∈ p.components.map Prod.fst ↔
      ∃ s ∈ p.sources, s.path = path ∧ ∃ parts, s.resources = .inlined parts := by
  simp only [components, List.map_filterMap, List.mem_filterMap]
  refine exists_congr fun s => and_congr_right fun _ => ?_
  cases s.resources <;> simp

theorem mem_missing {p : Program} {path : Path} :
    path ∈ p.missing.map Prod.fst ↔
      ∃ s ∈ p.sources, s.path = path ∧ ∃ file, s.resources = .missing file := by
  simp only [missing, List.map_filterMap, List.mem_filterMap]
  refine exists_congr fun s => and_congr_right fun _ => ?_
  cases s.resources <;> simp

/-- A source of a program that has one for each place is in one of the two tables at most. -/
theorem components_apart_missing {p : Program}
    (apart : p.sources.Pairwise fun s t => s.path.same t.path = false) {a b : Path}
    (ha : a ∈ p.components.map Prod.fst) (hb : b ∈ p.missing.map Prod.fst) : a.same b = false := by
  obtain ⟨s, hs, rfl, parts, hparts⟩ := mem_components.mp ha
  obtain ⟨t, ht, rfl, file, hfile⟩ := mem_missing.mp hb
  have hne : s ≠ t := by
    rintro rfl
    rw [hparts] at hfile
    cases hfile
  have hsymm : Std.Symm fun s t : Source => s.path.same t.path = false :=
    ⟨fun s t h => by rwa [Path.same_comm]⟩
  exact apart.forall hs ht hne

/-- A source with resources is in one of the two tables at least. -/
theorem mem_components_or_missing {p : Program} {path : Path} :
    path ∈ p.components.map Prod.fst ∨ path ∈ p.missing.map Prod.fst ↔
      ∃ s ∈ p.sources, s.path = path ∧ s.resources ≠ .none := by
  rw [mem_components, mem_missing, ← exists_or]
  refine exists_congr fun s => ?_
  rw [← and_or_left, ← and_or_left]
  refine and_congr_right fun _ => and_congr_right fun _ => ?_
  cases s.resources <;> simp

end Program

section

variable {digest : List Char → String} {host : ResourceHost} {fs : FileSystem}

theorem found_eq_none {path : Path} {ps : List MetadataProperty} :
    found digest host fs path ps = .none ↔ ps = [] := by
  unfold found
  by_cases hps : ps = []
  · simp [hps]
  · rw [if_neg (by simpa using hps)]
    cases h : Build.result (inlineAll digest host fs path ps) with
    | ok parts => simp [hps]
    | error e =>
      obtain ⟨file, rfl, -⟩ := inlineAll_eq_error h
      simp [hps]

/-- A source has resources if its text names any. -/
theorem resources_analyzed {path : Path} {text : List Char} :
    (analyzed digest host fs path text).resources = .none ↔
      properties (Syntax.read (.ofPath path) text).program = [] :=
  found_eq_none

theorem sourcesOf_apart {roots : List Path}
    (distinct : roots.Pairwise fun p q => p.same q = false) :
    (sourcesOf digest host fs roots).Pairwise fun s t => s.path.same t.path = false := by
  refine distinct.filterMap _ fun p q hpq s hs t ht => ?_
  obtain ⟨text, -, rfl⟩ := Option.map_eq_some_iff.mp hs
  obtain ⟨text', -, rfl⟩ := Option.map_eq_some_iff.mp ht
  exact hpq

theorem diagnostics_eq {p : Program} {roots : List Path}
    (sources : p.sources = sourcesOf digest host fs roots) : p.diagnostics =
      ((textsOf fs roots).map fun r => (Syntax.read (.ofPath r.1) r.2).problems).sum := by
  rw [Program.diagnostics, sources, sourcesOf_eq_map, List.foldr_map, List.sum, List.foldr_map]
  rfl

/-- What the sources are found by is the place and the text of a root. -/
theorem text_of_source? {p : Program} {roots : List Path}
    (sources : p.sources = sourcesOf digest host fs roots)
    (distinct : roots.Pairwise fun p q => p.same q = false) {path : Path} {text : List Char} :
    (∃ s, p.source? path = some s ∧ s.text = text) ↔
      ∃ root ∈ roots, root.same path = true ∧ fs.readText root = .ok text := by
  constructor
  · rintro ⟨s, hs, rfl⟩
    have hsame : s.path.same path = true := by simpa using List.find?_some hs
    have hmem := mem_of_source? hs
    rw [sources, mem_sourcesOf] at hmem
    obtain ⟨root, hroot, text, hread, rfl⟩ := hmem
    exact ⟨root, hroot, hsame, hread⟩
  · rintro ⟨root, hroot, hsame, hread⟩
    refine ⟨analyzed digest host fs root text, ?_, rfl⟩
    rw [source?_eq sources distinct hroot hsame, hread]
    rfl

end

/-- The analysis of a program over different places succeeds, and resources fail for no other reason
than a file that is not found. The sources are the roots that can be read, in their present texts; those
in which resources are named are divided into components and sources that miss one; and the problems of
all texts are counted. A further analysis on any other files does what it does for a new program. -/
theorem analyze_contents (digest : List Char → String) (p : Program) (w : World Unit)
    (distinct : p.roots.Pairwise fun p q => p.same q = false) :
    let c := compilerWith digest
    let named (path : Path) (text : List Char) := properties (Syntax.read (.ofPath path) text).program
    ∃ q v, c.analyze p w = (.ok q, v) ∧ v.files = w.files ∧
      (∀ path text e, Build.result (inlineAll digest p.host w.files path (named path text)) = .error e →
        ∃ file, e = .resourceNotFound file) ∧
      (∀ path text, (∃ s, q.source? path = some s ∧ s.text = text) ↔
        ∃ root ∈ p.roots, root.same path = true ∧ w.files.readText root = .ok text) ∧
      (∀ a ∈ q.components.map Prod.fst, ∀ b ∈ q.missing.map Prod.fst, a.same b = false) ∧
      (∀ path, path ∈ q.components.map Prod.fst ∨ path ∈ q.missing.map Prod.fst ↔
        ∃ s ∈ q.sources, s.path = path ∧ named s.path s.text ≠ []) ∧
      q.diagnostics = ((textsOf w.files p.roots).map fun r =>
        (Syntax.read (.ofPath r.1) r.2).problems).sum ∧
      ∀ w', c.analyze q w' = Session.build c p.roots p.options p.host w' := by
  intro c named
  obtain ⟨es, hanalyze⟩ := analyze_eq digest p w
  refine ⟨_, _, hanalyze, rfl, ?_, ?_, ?_, ?_, diagnostics_eq rfl, fun _ => rfl⟩
  · intro path text e failed
    obtain ⟨file, rfl, -⟩ := inlineAll_eq_error failed
    exact ⟨file, rfl⟩
  · intro path text
    exact text_of_source? rfl distinct
  · intro a ha b hb
    exact Program.components_apart_missing (sourcesOf_apart distinct) ha hb
  · intro path
    rw [Program.mem_components_or_missing]
    refine exists_congr fun s => and_congr_right fun hs => and_congr_right fun _ => not_congr ?_
    obtain ⟨root, -, text, -, rfl⟩ := mem_sourcesOf.mp hs
    exact resources_analyzed

namespace Trial

/-- A component beside its template, one without, and a text that is no program. -/
def corner : World Unit where
  files := ⟨"/", [sourceFile "a.ts" "@Component(\x7btemplateUrl:'t'\x7d)class A\x7b\x7d",
    sourceFile "b.ts" "@Component(\x7btemplateUrl:'u'\x7d)class B\x7b\x7d",
    sourceFile "c.ts" "c = ;", sourceFile "t" "t"]⟩
  state := ()

def southern : Program := programOver ["/b.ts", "/gone.ts", "/c.ts", "/a.ts"]

end Trial

theorem analyze_contents_trial :
    ∃ q v, compiler.analyze Trial.southern Trial.corner = (.ok q, v) ∧
      (∀ path text, (∃ s, q.source? path = some s ∧ s.text = text) ↔
        ∃ root ∈ Trial.southern.roots, root.same path = true ∧
          Trial.corner.files.readText root = .ok text) ∧
      q.sources.map Source.path = ["/b.ts", "/c.ts", "/a.ts"] ∧
      q.components.map Prod.fst = ["/a.ts"] ∧ q.missing.map Prod.fst = ["/b.ts"] ∧
      q.diagnostics = 1 := by
  have distinct : Trial.southern.roots.Pairwise fun p q => p.same q = false := by decide +kernel
  obtain ⟨es, analyzed⟩ := analyze_eq (fun s => fingerprint (String.ofList s)) Trial.southern
    Trial.corner
  obtain ⟨q, v, hq, -, -, sources, -⟩ := analyze_contents
    (fun s => fingerprint (String.ofList s)) Trial.southern Trial.corner distinct
  obtain rfl := Except.ok.inj (congrArg Prod.fst (analyzed.symm.trans hq))
  exact ⟨_, v, hq, sources, by decide +kernel, by decide +kernel, by decide +kernel,
    by decide +kernel⟩

end LiveLoader.PlainCompiler
