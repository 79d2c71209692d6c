import LiveLoader.PlainCompiler
import LiveLoader.Proofs.Resource.Inlining
import LiveLoader.Session
import Mathlib.Data.List.Pairwise

/-!
# What the analysis finds

The analysis of the plain compiler never fails. It finds one source for each root that can be read,
and what it finds for a root depends on that root's text and its resources alone.
-/

namespace LiveLoader

/-- What is read is the text of a file. -/
theorem FileSystem.mem_entries_of_readText {fs : FileSystem} {p : Path} {text : List Char}
    (h : fs.readText p = .ok text) : ∃ l, (l, Entry.file (some text)) ∈ fs.entries := by
  obtain ⟨l, -, h⟩ := bind_eq_ok.mp h
  refine ⟨l, ?_⟩
  unfold textAt at h
  split at h
  case h_1 text' hl =>
    cases h
    cases l with
    | nil =>
      unfold entry? at hl
      cases hl
    | cons name l =>
      obtain ⟨as, bs, hentries, -⟩ := List.lookup_eq_some_iff.mp hl
      rw [hentries]
      simp
  all_goals cases h

namespace PlainCompiler

open Resource

section

variable (digest : List Char → String) (host : ResourceHost) (fs : FileSystem)

/-- What is found out about the resources of a source. -/
def found (path : Path) (ps : List MetadataProperty) : Resources :=
  if ps.isEmpty then .none
  else match Build.result (inlineAll digest host fs path ps) with
    | .ok parts => .inlined parts
    | .error (.resourceNotFound file) => .missing file
    | .error _ => .none

/-- The source for a root with a text. -/
def analyzed (path : Path) (text : List Char) : Source :=
  let reading := Syntax.read (.ofPath path) text
  ⟨path, text, reading.problems, found digest host fs path (properties reading.program)⟩

/-- The roots that can be read, with their texts. -/
def textsOf (fs : FileSystem) (roots : List Path) : List (Path × List Char) :=
  roots.filterMap fun root => (fs.readText root).toOption.map fun text => (root, text)

/-- The sources for roots. -/
def sourcesOf (roots : List Path) : List Source :=
  roots.filterMap fun root => (fs.readText root).toOption.map (analyzed digest host fs root)

theorem result_resourcesOf (path : Path) (ps : List MetadataProperty) :
    Build.result (resourcesOf digest host fs path ps) = .ok (found digest host fs path ps) := by
  unfold resourcesOf found
  split
  case isTrue => rfl
  case isFalse =>
    rw [Build.result_mk, Logged.value_bind]
    show (match Build.result (inlineAll digest host fs path ps) with
      | .ok parts => (pure (.ok (.inlined parts)) : Logged (Result Resources))
      | .error (.resourceNotFound file) => do
        warnOfMissing path file
        return .ok (.missing file)
      | .error e => pure (.error e)).value = _
    cases h : Build.result (inlineAll digest host fs path ps) with
    | ok parts => rfl
    | error e =>
      obtain ⟨file, rfl, -⟩ := inlineAll_eq_error h
      rfl

theorem result_analyzeSource (path : Path) (text : List Char) :
    Build.result (analyzeSource digest host fs path text) =
      .ok (analyzed digest host fs path text) := by
  simp only [analyzeSource, Build.result_bind, Build.result_ofLogged, result_resourcesOf]
  rfl

theorem sourcesOf_eq_map (roots : List Path) : sourcesOf digest host fs roots =
    (textsOf fs roots).map fun r => analyzed digest host fs r.1 r.2 := by
  unfold sourcesOf textsOf
  rw [List.map_filterMap]
  simp only [Option.map_map]
  rfl

theorem value_readRoots (roots : List Path) :
    (readRoots fs roots).value = textsOf fs roots := by
  unfold textsOf
  induction roots with
  | nil => rfl
  | cons root roots ih =>
    rw [readRoots, List.filterMap_cons]
    cases h : fs.readText root with
    | ok text => simp [Except.toOption, ih]
    | error e => simp [Except.toOption, ih]

theorem result_analyzeTexts (texts : List (Path × List Char)) :
    Build.result (texts.mapM fun (path, text) => analyzeSource digest host fs path text) =
      .ok (texts.map fun r => analyzed digest host fs r.1 r.2) := by
  rw [Build.result_mapM]
  exact mapM_eq_map (fun _ => result_analyzeSource digest host fs _ _) texts

theorem result_analyzeRoots (roots : List Path) :
    Build.result (analyzeRoots digest host fs roots) = .ok (sourcesOf digest host fs roots) := by
  rw [analyzeRoots, Build.result_bind, Build.result_ofLogged, value_readRoots, sourcesOf_eq_map]
  exact result_analyzeTexts digest host fs (textsOf fs roots)

theorem result_analyze (p : Program) : Build.result (analyze digest p fs) =
    .ok { p with sources := sourcesOf digest p.host fs p.roots } := by
  simp only [analyze, Build.result_bind, result_analyzeRoots]
  rfl

/-- The analysis reads the files as they are; only the log is written. -/
theorem analyze_eq (p : Program) (w : World Unit) :
    ∃ es, (compilerWith digest).analyze p w =
      (.ok { p with sources := sourcesOf digest p.host w.files p.roots }, w.write es) :=
  ⟨(analyze digest p w.files).run.log, Prod.ext (result_analyze digest w.files p) rfl⟩

/-- A program can be made over any roots. -/
theorem build_eq (roots : List Path) (options : CompilerOptions) (w : World Unit) :
    ∃ es, Session.build (compilerWith digest) roots options host w =
      (.ok { roots, options, host, sources := sourcesOf digest host w.files roots },
        w.write es) :=
  analyze_eq digest { roots, options, host } w

end

section

variable {digest : List Char → String} {host : ResourceHost} {fs fs' : FileSystem}

theorem mem_sourcesOf {roots : List Path} {s : Source} :
    s ∈ sourcesOf digest host fs roots ↔
      ∃ root ∈ roots, ∃ text, fs.readText root = .ok text ∧
        analyzed digest host fs root text = s := by
  unfold sourcesOf
  rw [List.mem_filterMap]
  refine exists_congr fun root => and_congr_right fun _ => ?_
  cases fs.readText root <;> simp [Except.toOption]

/-- Roots that are different places are known by their place. -/
theorem eq_of_same_of_mem {roots : List Path}
    (distinct : roots.Pairwise fun p q => p.same q = false) {p q : Path} (hp : p ∈ roots)
    (hq : q ∈ roots) (h : p.same q = true) : p = q := by
  by_contra hne
  have hsymm : Std.Symm fun p q : Path => p.same q = false :=
    ⟨fun p q hpq => by rwa [Path.same_comm]⟩
  have := distinct.forall hp hq hne
  simp [h] at this

theorem mem_of_source? {program : Program} {path : Path} {s : Source}
    (h : program.source? path = some s) : s ∈ program.sources :=
  List.mem_reverse.mp (List.mem_of_find?_eq_some h)

theorem changed_of_source? {program : Program} {path : Path} {s : Source}
    (unchanged : inputsChanged digest program fs = false) (h : program.source? path = some s) :
    s.changed digest fs = false :=
  Bool.eq_false_iff.mpr (List.any_eq_false.mp unchanged s (mem_of_source? h))

/-- The source for a path is the one of the root at its place, whatever the other roots are. -/
theorem source?_eq {program : Program} {roots : List Path}
    (sources : program.sources = sourcesOf digest host fs roots)
    (distinct : roots.Pairwise fun p q => p.same q = false) {root path : Path}
    (hroot : root ∈ roots) (same : root.same path = true) :
    program.source? path = (fs.readText root).toOption.map (analyzed digest host fs root) := by
  have hunique : ∀ s ∈ program.sources, s.path.same path = true →
      ∃ text, fs.readText root = .ok text ∧ analyzed digest host fs root text = s := by
    intro s hs hsame
    rw [sources, mem_sourcesOf] at hs
    obtain ⟨r, hr, text, hread, rfl⟩ := hs
    have hr' : r = root := eq_of_same_of_mem distinct hr hroot
      (Path.same_trans hsame (by rwa [Path.same_comm]))
    subst hr'
    exact ⟨text, hread, rfl⟩
  unfold Program.source?
  cases hread : fs.readText root with
  | error e =>
    refine List.find?_eq_none.mpr fun s hs hsame => ?_
    obtain ⟨text, htext, -⟩ := hunique s (List.mem_reverse.mp hs) hsame
    simp [hread] at htext
  | ok text =>
    have hmem : analyzed digest host fs root text ∈ program.sources := by
      rw [sources]
      exact mem_sourcesOf.mpr ⟨root, hroot, text, hread, rfl⟩
    cases hfind : program.sources.reverse.find? fun s => s.path.same path with
    | none =>
      have := List.find?_eq_none.mp hfind _ (List.mem_reverse.mpr hmem)
      exact absurd same this
    | some s =>
      have hmem' : s ∈ program.sources := mem_of_source? hfind
      have hsame : s.path.same path = true := by simpa using List.find?_some hfind
      obtain ⟨text', htext', rfl⟩ := hunique s hmem' hsame
      rw [hread] at htext'
      cases htext'
      rfl

/-- No two files with different texts in the one and the other file system have one digest. -/
def NoCollision (digest : List Char → String) (fs fs' : FileSystem) : Prop :=
  ∀ p q a b, fs.readText p = .ok a → fs'.readText q = .ok b → digest a = digest b → a = b

/-- Digests that tell the texts of all files apart do so for whatever is read. -/
theorem noCollision_of_texts {texts : List (List Char)}
    (distinct : texts.Pairwise fun a b => digest a ≠ digest b)
    (h : ∀ e ∈ fs.entries, ∀ text, e.2 = .file (some text) → text ∈ texts)
    (h' : ∀ e ∈ fs'.entries, ∀ text, e.2 = .file (some text) → text ∈ texts) :
    NoCollision digest fs fs' := by
  intro p q a b ha hb heq
  obtain ⟨l, hl⟩ := FileSystem.mem_entries_of_readText ha
  obtain ⟨m, hm⟩ := FileSystem.mem_entries_of_readText hb
  by_contra hne
  have hsymm : Std.Symm fun a b : List Char => digest a ≠ digest b := ⟨fun _ _ => Ne.symm⟩
  exact distinct.forall (h _ hl a rfl) (h' _ hm b rfl) hne heq

/-- A source whose resources did not change is found again, unless one of them was missing. -/
theorem analyzed_of_unchanged (noCollision : NoCollision digest fs fs') {path : Path}
    {text : List Char}
    (present : ∀ file, (analyzed digest host fs path text).resources ≠ .missing file)
    (unchanged : (analyzed digest host fs path text).changed digest fs' = false) :
    analyzed digest host fs' path text = analyzed digest host fs path text := by
  have hfound : ∀ ps, (∀ file, found digest host fs path ps ≠ .missing file) →
      (∀ parts, found digest host fs path ps = .inlined parts →
        ∀ e ∈ parts.files, ∃ text, fs'.readText e.1 = .ok text ∧ digest text = e.2) →
      found digest host fs' path ps = found digest host fs path ps := by
    intro ps hpresent hfiles
    unfold found at hpresent hfiles ⊢
    split
    case isTrue => rfl
    case isFalse hps =>
      simp only [if_neg hps] at hpresent hfiles
      cases h : Build.result (inlineAll digest host fs path ps) with
      | error e =>
        obtain ⟨file, rfl, -⟩ := inlineAll_eq_error h
        exact absurd (by rw [h]) (hpresent file)
      | ok parts =>
        obtain ⟨recorded, frame⟩ := inlineAll_frame fs' h
        rw [frame]
        intro e he
        obtain ⟨text, hread, hd⟩ := recorded e he
        obtain ⟨text', hread', hd'⟩ := hfiles parts (by rw [h]) e he
        rw [hread, hread', noCollision e.1 e.1 text text' hread hread' (by rw [hd', hd])]
  unfold analyzed
  simp only [Source.mk.injEq, true_and]
  refine hfound _ present ?_
  intro parts hparts e he
  unfold Source.changed analyzed at unchanged
  simp only [hparts] at unchanged
  have hfile := List.any_eq_false.mp unchanged e he
  rcases e with ⟨file, d⟩
  cases hread : fs'.readText file with
  | error _ => simp [hread] at hfile
  | ok text =>
    simp only [hread, decide_not, Bool.not_eq_true', decide_eq_false_iff_not, Classical.not_not]
      at hfile
    exact ⟨text, rfl, hfile⟩

theorem found_of_missing {path file : Path} {ps : List MetadataProperty} {f : FileFailure}
    (h : found digest host fs path ps = .missing file) (unreadable : fs'.readText file = .error f) :
    ∃ file', found digest host fs' path ps = .missing file' ∧
      ∃ f', fs'.readText file' = .error f' := by
  unfold found at h ⊢
  split at h
  case isTrue => cases h
  case isFalse hne =>
    rw [if_neg hne]
    split at h
    case h_1 => cases h
    case h_2 file₀ failed =>
      obtain rfl := Resources.missing.inj h
      obtain ⟨e, he⟩ := inlineAll_eq_error_of_unreadable failed unreadable
      obtain ⟨file', rfl, hfile'⟩ := inlineAll_eq_error he
      exact ⟨file', by rw [he], hfile'⟩
    case h_3 => cases h

/-- A source that misses a file misses one also wherever that file cannot be read. -/
theorem missing_of_missing {path file : Path} {text : List Char} {f : FileFailure}
    (h : (analyzed digest host fs path text).resources = .missing file)
    (unreadable : fs'.readText file = .error f) :
    ∃ file', (analyzed digest host fs' path text).resources = .missing file' ∧
      ∃ f', fs'.readText file' = .error f' := by
  unfold analyzed at h ⊢
  exact found_of_missing h unreadable

end

end PlainCompiler

end LiveLoader
