import LiveLoader.Proofs.FileSystem.Walk
import LiveLoader.Proofs.Filter
import LiveLoader.Proofs.PlainCompiler.Contents
import LiveLoader.Proofs.PlainCompiler.Sessions

/-!
# What is emitted

A source is not emitted if it is a declaration file, if it misses a resource, if its text cannot be
rewritten or transpiled, or if nothing runs in its script; these are asked for in this order. Any other
script is emitted as it is, unless the name of the file is a single dot before its extension: without
the extension that is no name, and the output is not found.
-/

namespace LiveLoader

/-- Without its extension a path ends in `..`, which is no name that could have another one. -/
def Path.losesName (p : Path) : Bool := p.stem? = some ['.'] ∧ p.trimmed = p.text

namespace Artifact

/-- The endings of script files. -/
def scriptEndings : List (List Char) := [".cjs".toList, ".mjs".toList, ".js".toList]

theorem accept_iff {name : List Char} :
    scriptFilter.accept name = true ↔ ∃ e ∈ scriptEndings, e <:+ name :=
  Filter.accept_iff_spellings rfl

theorem not_accept_dots (front : List Char) :
    scriptFilter.accept (front ++ ['.', '.']) = false := by
  have hlast : ∀ e ∈ scriptEndings, e ≠ [] ∧ e.getLast? = some 's' := by decide
  rw [Bool.eq_false_iff, ne_eq, accept_iff]
  rintro ⟨e, he, hsuffix⟩
  obtain ⟨hne, hs⟩ := hlast e he
  have h := hsuffix.getLast hne
  rw [List.getLast?_eq_getLast_of_ne_nil hne, h] at hs
  simp at hs

end Artifact

namespace PlainCompiler

theorem ending_outputExtension (path : Path) :
    '.' :: outputExtension path ∈ Artifact.scriptEndings := by
  unfold outputExtension
  split <;> decide

/-- The output of a file is named like a script, unless the file loses its name. -/
theorem accept_outputName {path : Path} (named : path.fileName? ≠ none) :
    Artifact.scriptFilter.accept (outputName path) = !path.losesName := by
  obtain ⟨name, hname⟩ := Option.ne_none_iff_exists'.mp named
  have hending := ending_outputExtension path
  have hne : outputExtension path ≠ [] := by
    intro h
    rw [h] at hending
    exact absurd hending (by decide)
  unfold outputName Path.withExtension Path.losesName Path.stem?
  simp only [hname, Option.map_some, Option.some.injEq, if_neg hne]
  by_cases hdots : (Path.splitExtension name).1 = ['.'] ∧ path.trimmed = path.text
  · rw [if_pos hdots, Artifact.not_accept_dots]
    simpa using hdots
  · rw [if_neg hdots]
    have haccept := Artifact.accept_iff.mpr ⟨_, hending, List.suffix_append
      (path.trimmed.take (path.trimmed.length - name.length) ++ (Path.splitExtension name).1) _⟩
    rw [haccept]
    simpa [imp_iff_not_or] using hdots

theorem ne_nil_of_running {code : List Char} (running : isEmptyModule code = false) :
    code ≠ [] := by
  rintro rfl
  exact absurd running (by decide)

/-- An output is taken for a script by its name alone: nothing empty is put out. -/
theorem isScript_outputName {path : Path} {code : List Char} (named : path.fileName? ≠ none)
    (running : isEmptyModule code = false) :
    Artifact.isScript ⟨outputName path, code⟩ = !path.losesName := by
  have hcode : code.isEmpty = false := by simpa using ne_nil_of_running running
  rw [Artifact.isScript, accept_outputName named, hcode]
  simp

/-- The script of a source: its text with the resources in it, rewritten and transpiled. -/
def Source.script (s : Source) (path : Path) : Result (List Char) := do
  let rewritten ← Bootstrap.rewrite path s.inlinedText
  transpile path rewritten

/-- A source has no script because of its own text alone. -/
theorem Source.script_eq_error {s : Source} {path : Path} {e : BuildError}
    (h : s.script path = .error e) :
    ∃ cause, e = .parse path cause ∨ e = .transformFailure path cause := by
  rcases bind_eq_error.mp h with h | ⟨rewritten, -, h⟩
  · obtain ⟨cause, rfl⟩ := rewrite_eq_error h
    exact ⟨cause, .inl rfl⟩
  · exact transpile_eq_error h

section

variable (digest : List Char → String) {s : Session Program} {path : Path} {source : Source}

/-- A session hands on the last output that is a script. -/
theorem emit_of_source (hs : s.program.source? path = some source) :
    Session.emit (compilerWith digest) s path =
      match emitSource source path { before := [.bootstrap] } with
      | .error e => .error e
      | .ok artifacts =>
        match (artifacts.filter Artifact.isScript).getLast? with
        | none => .error (.emitFailure path)
        | some a =>
          .ok ⟨a.data, (compilerWith digest).dependencies s.program path, digest a.data⟩ := by
  have hknown : (compilerWith digest).contains s.program path = true := by
    show (s.program.source? path).isSome = true
    rw [hs]
    rfl
  unfold Session.emit
  rw [hknown, emit_eq_emitSource digest hs]
  rfl

theorem emit_of_declaration (hs : s.program.source? path = some source)
    (declaration : isDeclarationFile path = true) :
    Session.emit (compilerWith digest) s path = .error (.emitFailure path) := by
  rw [emit_of_source digest hs, emitSource_eq, if_pos declaration]
  rfl

theorem emit_of_missing_resource (hs : s.program.source? path = some source)
    (code : isDeclarationFile path = false) {file : Path}
    (missing : source.resources = .missing file) :
    Session.emit (compilerWith digest) s path = .error (.resourceNotFound file) := by
  rw [emit_of_source digest hs, emitSource_eq, code, missing]
  rfl

/-- What is emitted for a source that misses nothing comes from its script. -/
theorem emit_of_present (hs : s.program.source? path = some source)
    (code : isDeclarationFile path = false) (present : ∀ file, source.resources ≠ .missing file)
    (named : path.fileName? ≠ none) :
    Session.emit (compilerWith digest) s path =
      match source.script path with
      | .error e => .error e
      | .ok script =>
        if isEmptyModule script || path.losesName then .error (.emitFailure path)
        else .ok ⟨script, (compilerWith digest).dependencies s.program path, digest script⟩ := by
  have hemit : emitSource source path { before := [.bootstrap] } =
      source.script path >>= fun script =>
        .ok (if isEmptyModule script then [] else [⟨outputName path, script⟩]) := by
    rw [emitSource_eq, code, Source.script, bind_assoc]
    cases h : source.resources with
    | missing file => exact absurd h (present file)
    | none => rfl
    | inlined parts => rfl
  rw [emit_of_source digest hs, hemit]
  cases source.script path with
  | error e => rfl
  | ok script =>
    cases hempty : isEmptyModule script with
    | true => simp [hempty, bind, Except.bind]
    | false =>
      have hscript := isScript_outputName named hempty
      cases hlost : path.losesName <;>
        simp [hempty, hscript, hlost, bind, Except.bind]

/-- A file without output is a declaration file, runs nothing, or loses its name. -/
theorem emit_eq_emitFailure (hs : s.program.source? path = some source)
    (named : path.fileName? ≠ none) :
    Session.emit (compilerWith digest) s path = .error (.emitFailure path) ↔
      isDeclarationFile path = true ∨ ((∀ file, source.resources ≠ .missing file) ∧
        ∃ script, source.script path = .ok script ∧
          (isEmptyModule script = true ∨ path.losesName = true)) := by
  cases declaration : isDeclarationFile path with
  | true => simp [emit_of_declaration digest hs declaration]
  | false =>
    by_cases present : ∀ file, source.resources ≠ .missing file
    · rw [emit_of_present digest hs declaration present named]
      cases h : source.script path with
      | error e =>
        obtain ⟨cause, rfl | rfl⟩ := Source.script_eq_error h <;> simp
      | ok script =>
        cases isEmptyModule script <;> cases path.losesName <;> simp [present]
    · obtain ⟨file, missing⟩ : ∃ file, source.resources = .missing file := by
        simpa using present
      simp [emit_of_missing_resource digest hs declaration missing, missing]

/-- All outputs are scripts by their content, and by their name too unless the path loses it. -/
theorem isScript_of_emitSource (named : path.fileName? ≠ none) {artifacts : List Artifact}
    (h : emitSource source path { before := [.bootstrap] } = .ok artifacts) :
    ∀ a ∈ artifacts, a.data ≠ [] ∧ Artifact.scriptFilter.accept a.fileName = !path.losesName := by
  intro a ha
  obtain rfl | ⟨rewritten, code, -, -, running, rfl⟩ := emitSource_eq_ok h
  · cases ha
  · obtain rfl := List.mem_singleton.mp ha
    exact ⟨ne_nil_of_running running, accept_outputName named⟩

end

section

variable {digest : List Char → String} {host : ResourceHost} {fs : FileSystem}

/-- A path with a source has a name: a file is read there. -/
theorem fileName?_of_source? {p : Program} {roots : List Path}
    (sources : p.sources = sourcesOf digest host fs roots) {path : Path} {source : Source}
    (hs : p.source? path = some source) : path.fileName? ≠ none := by
  have hsame : source.path.same path = true := by simpa using List.find?_some hs
  have hmem := mem_of_source? hs
  rw [sources, mem_sourcesOf] at hmem
  obtain ⟨root, -, text, hread, rfl⟩ := hmem
  have hcomponents : root.components = path.components := of_decide_eq_true hsame
  have hname := FileSystem.fileName?_of_readText hread
  rwa [Path.fileName?, hcomponents] at hname

end

/-- What a session emits for a path, once its program is analyzed. The path is unknown exactly if the
program has no source for it. There is no output exactly if the file is a declaration file, or if the
script of a source that misses nothing is empty or loses its name. Otherwise a missing resource is
reported, then the failure of the rewriting or the transpiling, and any other script is emitted as it
is. -/
theorem emit_of_analyzed (digest : List Char → String) {p : Program} {w v : World Unit}
    {s : Session Program} (analyzed : (compilerWith digest).analyze p w = (.ok s.program, v))
    (path : Path) :
    let c := compilerWith digest
    let emitted := Session.emit c s path
    (emitted = .error (.unknownSource path) ↔ s.program.source? path = none) ∧
    ∀ source, s.program.source? path = some source →
      let present := ∀ file, source.resources ≠ .missing file
      (∀ artifacts, c.emit s.program path (Session.emitTransformers c s) = .ok artifacts →
        ∀ a ∈ artifacts, a.data ≠ [] ∧
          Artifact.scriptFilter.accept a.fileName = !path.losesName) ∧
      (emitted = .error (.emitFailure path) ↔ isDeclarationFile path = true ∨
        (present ∧ ∃ script, source.script path = .ok script ∧
          (isEmptyModule script = true ∨ path.losesName = true))) ∧
      (isDeclarationFile path = false →
        (∀ file, source.resources = .missing file → emitted = .error (.resourceNotFound file)) ∧
        (present →
          (∀ e, source.script path = .error e → emitted = .error e) ∧
          (∀ script, source.script path = .ok script → isEmptyModule script = false →
            path.losesName = false →
            emitted = .ok ⟨script, c.dependencies s.program path, digest script⟩))) := by
  intro c emitted
  obtain ⟨es, hanalyze⟩ := analyze_eq digest p w
  have hprogram := Except.ok.inj (congrArg Prod.fst (hanalyze.symm.trans analyzed))
  have hsources : s.program.sources = sourcesOf digest p.host w.files p.roots := by
    rw [← hprogram]
  refine ⟨?_, fun source hs => ?_⟩
  · rw [emit_eq_unknownSource]
    exact and_iff_left rfl
  have named := fileName?_of_source? hsources hs
  intro present
  refine ⟨?_, emit_eq_emitFailure digest hs named, ?_⟩
  · intro artifacts h
    rw [emit_eq_emitSource digest hs] at h
    exact isScript_of_emitSource named h
  · intro code
    refine ⟨fun file missing => emit_of_missing_resource digest hs code missing, fun hpresent => ?_⟩
    have hemit := emit_of_present digest hs code hpresent named
    refine ⟨fun e failed => ?_, fun script made running kept => ?_⟩
    · rw [failed] at hemit
      exact hemit
    · rw [made] at hemit
      simpa [running, kept] using hemit

namespace Trial

/-- A session over roots whose program was just analyzed. -/
def sessionOver (roots : List Path) (w : World Unit) : Session Program where
  options := .standard
  host := plainHost
  program :=
    { programOver roots with
      sources := sourcesOf (fun s => fingerprint (String.ofList s)) plainHost w.files roots }

def streetSession : Session Program := sessionOver ["/a.ts", "/c.ts", "/d.d.ts"] street

/-- A file whose name is a dot before its extension. -/
def dotted : World Unit where
  files := ⟨"/", [sourceFile "..ts" "a;"]⟩
  state := ()

def dottedSession : Session Program := sessionOver ["/..ts"] dotted

end Trial

theorem emit_of_analyzed_trial :
    ∃ v, compiler.analyze Trial.western Trial.street = (.ok Trial.streetSession.program, v) ∧
      Session.emit compiler Trial.streetSession "/a.ts" =
        .ok ⟨"a;\n".toList, [], fingerprint "a;\n"⟩ ∧
      Session.emit compiler Trial.streetSession "/d.d.ts" = .error (.emitFailure "/d.d.ts") ∧
      Session.emit compiler Trial.streetSession "/b.ts" = .error (.unknownSource "/b.ts") := by
  let digest (s : List Char) : String := fingerprint (String.ofList s)
  let source (path : Path) (text : String) : Source :=
    PlainCompiler.analyzed digest Trial.plainHost Trial.street.files path text.toList
  have distinct : Trial.western.roots.Pairwise fun p q => p.same q = false := by decide +kernel
  have hsource (path : Path) (text : String) (hroot : path ∈ Trial.western.roots)
      (hread : Trial.street.files.readText path = .ok text.toList) :
      Trial.streetSession.program.source? path = some (source path text) := by
    have sources : Trial.streetSession.program.sources =
        sourcesOf digest Trial.plainHost Trial.street.files Trial.western.roots := rfl
    rw [source?_eq sources distinct hroot (Path.same_self path), hread]
    rfl
  obtain ⟨es, analyzed⟩ := analyze_eq digest Trial.western Trial.street
  have h (path : Path) := emit_of_analyzed digest (s := Trial.streetSession) analyzed path
  refine ⟨_, analyzed, ?_, ?_, ?_⟩
  · obtain ⟨-, -, emitted⟩ := (h "/a.ts").2 _
      (hsource "/a.ts" "a;" (by decide +kernel) (by decide +kernel))
    have hresources : (source "/a.ts" "a;").resources = .none :=
      resources_analyzed.mpr (List.isEmpty_iff.mp (by decide +kernel))
    have hpresent (file : Path) : (source "/a.ts" "a;").resources ≠ .missing file := by
      rw [hresources]
      exact nofun
    have hmodule := ((emitted (by decide +kernel)).2 hpresent).2 "a;\n".toList (by decide +kernel)
      (by decide +kernel) (by decide +kernel)
    have hdependencies : compiler.dependencies Trial.streetSession.program "/a.ts" = [] := by
      decide +kernel
    refine hmodule.trans (congrArg Except.ok ?_)
    rw [Emitted.mk.injEq]
    exact ⟨rfl, hdependencies, congrArg fingerprint String.ofList_toList⟩
  · obtain ⟨-, failed, -⟩ := (h "/d.d.ts").2 _
      (hsource "/d.d.ts" "declare var d;" (by decide +kernel) (by decide +kernel))
    exact failed.mpr (.inl (by decide +kernel))
  · exact (h "/b.ts").1.mpr (Option.isNone_iff_eq_none.mp (by decide +kernel))

/-- The script is there, but not under the name of one. -/
theorem script_without_name_is_dropped :
    (∃ v, compiler.analyze (Trial.programOver ["/..ts"]) Trial.dotted =
        (.ok Trial.dottedSession.program, v)) ∧
      isDeclarationFile "/..ts" = false ∧ isEmptyModule "a;\n".toList = false ∧
      compiler.emit Trial.dottedSession.program "/..ts"
        (Session.emitTransformers compiler Trial.dottedSession) =
          .ok [⟨"/..".toList, "a;\n".toList⟩] ∧
      Session.emit compiler Trial.dottedSession "/..ts" = .error (.emitFailure "/..ts") := by
  obtain ⟨es, analyzed⟩ := analyze_eq (fun s => fingerprint (String.ofList s))
    (Trial.programOver ["/..ts"]) Trial.dotted
  exact ⟨⟨_, analyzed⟩, by decide +kernel, by decide +kernel, by decide +kernel,
    by decide +kernel⟩

end PlainCompiler

end LiveLoader
