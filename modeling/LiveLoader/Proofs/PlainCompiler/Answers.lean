import LiveLoader.Proofs.PlainCompiler.Analysis

/-!
# What a program answers

What an analyzed program answers for a path comes from the source that it has for it and from
nothing else. So the roots do not get in each other's way; and a program that finds none of its
inputs changed answers as one that is made now, save that it may miss another file than that one
does.
-/

namespace LiveLoader.PlainCompiler

/-- Programs with one source for a path answer alike. -/
theorem answers_of_source? (digest : List Char → String) {p q : Program} {path : Path}
    (h : p.source? path = q.source? path) :
    (compilerWith digest).contains p path = (compilerWith digest).contains q path ∧
    (compilerWith digest).dependencies p path = (compilerWith digest).dependencies q path ∧
    ∀ ts, (compilerWith digest).emit p path ts = (compilerWith digest).emit q path ts := by
  simp only [compilerWith, emit, dependencies, h, implies_true, and_self]

/-- Programs over roots that are different places answer alike for a root that they share, whatever
the other roots are and in whatever order. -/
theorem answers_of_shared_root (digest : List Char → String) (p₁ p₂ : Program)
    {w₁ w₂ : World Unit} (files : w₁.files = w₂.files) (host : p₁.host = p₂.host)
    (distinct₁ : p₁.roots.Pairwise fun p q => p.same q = false)
    (distinct₂ : p₂.roots.Pairwise fun p q => p.same q = false) {root path : Path}
    (mem₁ : root ∈ p₁.roots) (mem₂ : root ∈ p₂.roots) (same : root.same path = true) :
    let c := compilerWith digest
    ∃ q₁ v₁ q₂ v₂, c.analyze p₁ w₁ = (.ok q₁, v₁) ∧ c.analyze p₂ w₂ = (.ok q₂, v₂) ∧
      c.contains q₁ path = c.contains q₂ path ∧
      c.dependencies q₁ path = c.dependencies q₂ path ∧
      ∀ ts, c.emit q₁ path ts = c.emit q₂ path ts := by
  obtain ⟨es₁, analyzed₁⟩ := analyze_eq digest p₁ w₁
  obtain ⟨es₂, analyzed₂⟩ := analyze_eq digest p₂ w₂
  refine ⟨_, _, _, _, analyzed₁, analyzed₂, answers_of_source? digest ?_⟩
  rw [source?_eq rfl distinct₁ mem₁ same, source?_eq rfl distinct₂ mem₂ same, files, host]

namespace Trial

def sourceFile (name text : String) : Location × Entry := ([name.toList], .file (some text.toList))

/-- A module among files that have no code: a component without its template, a text that is no
program, and a declaration file. -/
def street : World Unit where
  files := ⟨"/", [sourceFile "a.ts" "a;",
    sourceFile "b.ts" "@Component(\x7btemplateUrl:'t'\x7d)class B\x7b\x7d",
    sourceFile "c.ts" "c = ;", sourceFile "d.d.ts" "declare var d;"]⟩
  state := ()

def plainHost : ResourceHost := ⟨none, .unchanged⟩

def programOver (roots : List Path) : Program := ⟨roots, .standard, plainHost, []⟩

theorem programOver_host (roots : List Path) : (programOver roots).host = plainHost := rfl

def eastern : Program := programOver ["/b.ts", "/gone.ts", "/a.ts"]

def western : Program := programOver ["/a.ts", "/c.ts", "/d.d.ts"]

end Trial

theorem answers_of_shared_root_trial :
    ∃ q₁ v₁ q₂ v₂, compiler.analyze Trial.eastern Trial.street = (.ok q₁, v₁) ∧
      compiler.analyze Trial.western Trial.street = (.ok q₂, v₂) ∧
      compiler.contains q₁ "/a.ts" = compiler.contains q₂ "/a.ts" ∧
      compiler.dependencies q₁ "/a.ts" = compiler.dependencies q₂ "/a.ts" ∧
      ∀ ts, compiler.emit q₁ "/a.ts" ts = compiler.emit q₂ "/a.ts" ts := by
  have eastern : Trial.eastern.roots.Pairwise fun p q => p.same q = false := by decide +kernel
  have western : Trial.western.roots.Pairwise fun p q => p.same q = false := by decide +kernel
  have mem₁ : ("/a.ts" : Path) ∈ Trial.eastern.roots := by decide +kernel
  have mem₂ : ("/a.ts" : Path) ∈ Trial.western.roots := by decide +kernel
  have files : Trial.street.files = Trial.street.files := rfl
  have host : Trial.eastern.host = Trial.western.host :=
    (Trial.programOver_host _).trans (Trial.programOver_host _).symm
  exact answers_of_shared_root (fun s => fingerprint (String.ofList s)) Trial.eastern Trial.western
    files host eastern western mem₁ mem₂ (Path.same_self "/a.ts")

section

variable {digest : List Char → String} {host : ResourceHost} {fs fs' : FileSystem}

theorem textsOf_congr {roots : List Path}
    (h : ∀ root ∈ roots, (fs'.readText root).toOption = (fs.readText root).toOption) :
    textsOf fs' roots = textsOf fs roots := by
  refine List.filterMap_congr fun root hroot => ?_
  rw [h root hroot]

/-- The root that a path's source comes from, with its text; of several the last. -/
def rootText? (fs : FileSystem) (roots : List Path) (path : Path) : Option (Path × List Char) :=
  (textsOf fs roots).reverse.find? fun r => r.1.same path

theorem source?_eq_map {program : Program} {roots : List Path}
    (sources : program.sources = sourcesOf digest host fs roots) (path : Path) :
    program.source? path =
      (rootText? fs roots path).map fun r => analyzed digest host fs r.1 r.2 := by
  unfold Program.source? rootText?
  rw [sources, sourcesOf_eq_map, ← List.map_reverse, List.find?_map]
  rfl

theorem unreadable_of_not_holds {file : Path} (h : fs.holds file = false) :
    ∃ f, fs.readText file = .error f := by
  unfold FileSystem.holds at h
  cases hl : fs.locate file with
  | error f =>
    refine ⟨f, ?_⟩
    rw [FileSystem.readText, hl]
    rfl
  | ok l => simp [hl, Except.toOption] at h

/-- A source that misses a resource cannot be emitted; a declaration file has no output anyway. -/
theorem emit_of_missing {p : Program} {path file : Path} {s : Source}
    (hs : p.source? path = some s) (missing : s.resources = .missing file) (ts : Transformers) :
    emit p path ts =
      if isDeclarationFile path then .ok [] else .error (.resourceNotFound file) := by
  rw [emit, hs]
  simp only [emitSource, missing]
  split <;> rfl

theorem dependencies_of_missing {p : Program} {path file : Path} {s : Source}
    (hs : p.source? path = some s) (missing : s.resources = .missing file) :
    dependencies p path = [] := by
  simp only [dependencies, hs, Source.files, missing, List.map_nil]

/-- A source that did not change is found again, unless it missed a file: then it misses one
again. -/
theorem analyzed_or_missing (noCollision : NoCollision digest fs fs') {path : Path}
    {text : List Char}
    (unchanged : (analyzed digest host fs path text).changed digest fs' = false) :
    analyzed digest host fs path text = analyzed digest host fs' path text ∨
    ∃ file file', (analyzed digest host fs path text).resources = .missing file ∧
      (analyzed digest host fs' path text).resources = .missing file' ∧
      fs'.holds file = false ∧ ∃ f, fs'.readText file' = .error f := by
  by_cases missing : ∃ file, (analyzed digest host fs path text).resources = .missing file
  · obtain ⟨file, hfile⟩ := missing
    have gone : fs'.holds file = false := by
      rwa [Source.changed, hfile] at unchanged
    obtain ⟨f, hf⟩ := unreadable_of_not_holds gone
    obtain ⟨file', hfile', unreadable⟩ := missing_of_missing hfile hf
    exact .inr ⟨file, file', hfile, hfile', gone, unreadable⟩
  · exact .inl (analyzed_of_unchanged noCollision (not_exists.mp missing) unchanged).symm

/-- With roots that have the same texts, a program that finds no input changed has the sources that
are found now, save those that miss a file in both. -/
theorem source?_or_missing {p q : Program} {roots : List Path}
    (hp : p.sources = sourcesOf digest host fs roots)
    (hq : q.sources = sourcesOf digest host fs' roots)
    (sameTexts : ∀ root ∈ roots, (fs'.readText root).toOption = (fs.readText root).toOption)
    (noCollision : NoCollision digest fs fs') (unchanged : inputsChanged digest p fs' = false)
    (path : Path) : p.source? path = q.source? path ∨
      ∃ s s' file file', p.source? path = some s ∧ q.source? path = some s' ∧
        s.resources = .missing file ∧ s'.resources = .missing file' ∧
        fs'.holds file = false ∧ ∃ f, fs'.readText file' = .error f := by
  have hold := source?_eq_map hp path
  have hnew := source?_eq_map hq path
  rw [rootText?, textsOf_congr sameTexts, ← rootText?] at hnew
  cases hroot : rootText? fs roots path with
  | none =>
    rw [hroot, Option.map_none] at hold hnew
    exact .inl (hold.trans hnew.symm)
  | some r =>
    rw [hroot, Option.map_some] at hold hnew
    rcases analyzed_or_missing noCollision (changed_of_source? unchanged hold) with
      heq | ⟨file, file', missing, missing', gone, unreadable⟩
    · left
      rw [hold, hnew, heq]
    · exact .inr ⟨_, _, file, file', hold, hnew, missing, missing', gone, unreadable⟩

end

/-- A program that finds none of its inputs changed, with roots that have the same texts still,
answers as a program over the same roots that is made now. Only where an emit fails in both for a
missing resource, the file may be another one; the one that the old program names is not there
now. -/
theorem answers_of_unchanged (digest : List Char → String) {p₀ p : Program} {w v w' : World Unit}
    (analyzed : (compilerWith digest).analyze p₀ w = (.ok p, v))
    (sameTexts : ∀ root ∈ p.roots,
      (w'.files.readText root).toOption = (w.files.readText root).toOption)
    (noCollision : NoCollision digest w.files w'.files)
    (unchanged : ((compilerWith digest).inputsChanged p w').1 = false) :
    let c := compilerWith digest
    ∃ q v', Session.build c p.roots p.options p.host w' = (.ok q, v') ∧ ∀ path,
      c.contains p path = c.contains q path ∧
      c.dependencies p path = c.dependencies q path ∧
      ∀ ts, c.emit p path ts = c.emit q path ts ∨
        ∃ file file', c.emit p path ts = .error (.resourceNotFound file) ∧
          c.emit q path ts = .error (.resourceNotFound file') ∧
          w'.files.holds file = false ∧ ∃ f, w'.files.readText file' = .error f := by
  intro c
  obtain ⟨es, hp⟩ := analyze_eq digest p₀ w
  obtain rfl : { p₀ with sources := sourcesOf digest p₀.host w.files p₀.roots } = p :=
    Except.ok.inj (congrArg Prod.fst (hp.symm.trans analyzed))
  obtain ⟨es', hq⟩ := build_eq digest p₀.host p₀.roots p₀.options w'
  let q : Program :=
    ⟨p₀.roots, p₀.options, p₀.host, sourcesOf digest p₀.host w'.files p₀.roots⟩
  refine ⟨q, _, hq, fun path => ?_⟩
  rcases source?_or_missing (q := q) rfl rfl sameTexts noCollision unchanged path with
    heq | ⟨s, s', file, file', hs, hs', missing, missing', gone, unreadable⟩
  · obtain ⟨contains, dependencies, emit⟩ := answers_of_source? digest heq
    exact ⟨contains, dependencies, fun ts => .inl (emit ts)⟩
  · refine ⟨?_, ?_, fun ts => ?_⟩
    · exact (congrArg Option.isSome hs).trans (congrArg Option.isSome hs').symm
    · exact (dependencies_of_missing hs missing).trans (dependencies_of_missing hs' missing').symm
    · have hold := emit_of_missing hs missing ts
      have hnew := emit_of_missing hs' missing' ts
      by_cases declaration : isDeclarationFile path = true
      · rw [if_pos declaration] at hold hnew
        exact .inl (hold.trans hnew.symm)
      · rw [if_neg declaration] at hold hnew
        exact .inr ⟨file, file', hold, hnew, gone, unreadable⟩

namespace Trial

def component : String := "@Component(\x7btemplateUrl:'t',styleUrl:'u'\x7d)class A\x7b\x7d"

/-- A component without its stylesheet, beside the given files. -/
def unstyled (files : List (Location × Entry)) : World Unit where
  files := ⟨"/", sourceFile "a.ts" component :: files⟩
  state := ()

/-- The template is there. -/
def before : World Unit := unstyled [sourceFile "t" "t"]

/-- The template is gone. -/
def later : World Unit := unstyled [sourceFile "v" "v"]

def programIn (w : World Unit) : Program :=
  { programOver ["/a.ts"] with
    sources := sourcesOf (fun s => fingerprint (String.ofList s)) plainHost w.files ["/a.ts"] }

theorem noCollision : NoCollision (fun s => fingerprint (String.ofList s)) before.files
    later.files := by
  have distinct : [component.toList, "t".toList, "v".toList].Pairwise fun a b =>
      fingerprint (String.ofList a) ≠ fingerprint (String.ofList b) := by
    decide +kernel
  refine noCollision_of_texts distinct ?_ ?_
  · simp [before, unstyled, sourceFile]
  · simp [later, unstyled, sourceFile]

end Trial

/-- The old program names the stylesheet that it missed, the new one the template. -/
theorem answers_of_unchanged_trial :
    ∃ v₀ q v, compiler.analyze (Trial.programOver ["/a.ts"]) Trial.before =
        (.ok (Trial.programIn Trial.before), v₀) ∧
      Session.build compiler ["/a.ts"] .standard Trial.plainHost Trial.later = (.ok q, v) ∧
      compiler.emit (Trial.programIn Trial.before) "/a.ts" {} = .error (.resourceNotFound "/u") ∧
      compiler.emit q "/a.ts" {} = .error (.resourceNotFound "/t") ∧ ∀ path,
      compiler.contains (Trial.programIn Trial.before) path = compiler.contains q path ∧
      compiler.dependencies (Trial.programIn Trial.before) path = compiler.dependencies q path := by
  obtain ⟨es, analyzed⟩ := analyze_eq (fun s => fingerprint (String.ofList s))
    (Trial.programOver ["/a.ts"]) Trial.before
  obtain ⟨es', built⟩ := build_eq (fun s => fingerprint (String.ofList s)) Trial.plainHost
    ["/a.ts"] .standard Trial.later
  obtain ⟨q, v, hq, answers⟩ := answers_of_unchanged (fun s => fingerprint (String.ofList s))
    (p := Trial.programIn Trial.before) analyzed (by decide +kernel) Trial.noCollision
    (by decide +kernel)
  obtain rfl : Trial.programIn Trial.later = q :=
    Except.ok.inj (congrArg Prod.fst (built.symm.trans hq))
  exact ⟨_, _, v, analyzed, hq, by decide +kernel, by decide +kernel, fun path =>
    ⟨(answers path).1, (answers path).2.1⟩⟩

end LiveLoader.PlainCompiler
