import LiveLoader.Proofs.Pipeline.Loads
import LiveLoader.Proofs.PlainCompiler.Sessions

/-!
# Loading again

A pipeline with the plain compiler is compared with one that was set up just now. The fresh one
loads the code of the text that the path has. The other one loads the code of the text that the path
had when the program was last made, with the resources and the snippet of now.
-/

namespace LiveLoader

namespace Pipeline

open PlainCompiler (compilerWith analyzed sourcesOf NoCollision)
open Session (afterAll after Installs InstallsAmong)

section

variable (digest : List Char → String) (options : CompilerOptions) (host : ResourceHost)
  (fs : FileSystem) (path : Path)

/-- What is emitted for a path from a text and the resources in a file system. -/
def emittedFrom (text : List Char) : Result Emitted :=
  Session.emit (compilerWith digest) {
    options, host
    program := ⟨[path], options, host, [analyzed digest host fs path text]⟩ } path

/-- What a load answers with the code of one text and the snippet of another. -/
def loadedFrom (code shown : List Char) : Except LoadError (Option Loaded) :=
  answer path path shown (emittedFrom digest options host fs path code)

end

section

variable {digest : List Char → String} {options : CompilerOptions} {host : ResourceHost}

theorem emit_eq_emittedFrom (options : CompilerOptions) {s : Session PlainCompiler.Program}
    {fs : FileSystem} {path : Path} {text : List Char}
    (source : s.program.source? path = some (analyzed digest host fs path text)) :
    Session.emit (compilerWith digest) s path =
      emittedFrom digest options host fs path text := by
  refine PlainCompiler.emit_of_source? digest (source.trans ?_)
  simp [PlainCompiler.Program.source?, analyzed]

/-- A load of a source of the framework emits from the session that its call leaves. -/
theorem load_eq_answer (digest : List Char → String) {p : Pipeline PlainCompiler.Program}
    {l : Load Unit} {text : List Char}
    (framework : p.dispatch l.path = some .framework)
    (readable : l.world.files.readText l.path = .ok text) :
    (load (compilerWith digest) p l.path l.world).1 =
      answer l.path l.place text (Session.emit (compilerWith digest)
        (afterLoad (compilerWith digest) p l).session l.place) := by
  have hcall : call? p l = some ⟨.ensureCurrent l.place text, l.world⟩ :=
    call?_eq_some.mpr ⟨framework, text, readable, rfl⟩
  rw [(load_framework framework readable).1, PlainCompiler.compileSource_eq, afterLoad_eq, hcall]
  rfl

/-- The session is asked for normal paths. -/
theorem normal_of_call? {p : Pipeline Program} {ls : List (Load σ)} {k : Session.Call σ}
    (h : k ∈ ls.filterMap (call? p)) {r : Path} (asked : k.root? = some r) : r.normalize = r := by
  obtain ⟨l, -, hl⟩ := List.mem_filterMap.mp h
  obtain ⟨-, text, -, rfl⟩ := call?_eq_some.mp hl
  obtain rfl : l.place = r := Option.some.inj asked
  exact Path.normalize_absolutize _ _

/-- A fresh pipeline loads the code of the text that the path has. -/
theorem load_fresh {v v' w : World Unit} {s : Session PlainCompiler.Program}
    (started : Session.start (compilerWith digest) options host v = (.ok s, v'))
    (routes : Option RoutesModule) (transform : SourceTransform) {path : Path}
    (absolute : path.isAbsolute = true) (normal : path.normalize = path) {text : List Char}
    (framework : dispatch ⟨routes, s, transform⟩ path = some .framework)
    (readable : w.files.readText path = .ok text) :
    (load (compilerWith digest) ⟨routes, s, transform⟩ path w).1 =
      loadedFrom digest options host w.files path text text := by
  let p : Pipeline PlainCompiler.Program := ⟨routes, s, transform⟩
  let l : Load Unit := ⟨path, w⟩
  let k : Session.Call Unit := ⟨.ensureCurrent l.place text, w⟩
  have hplace : l.place = path := Path.absolutize_of_normal absolute normal _
  have hcall : call? p l = some k := call?_eq_some.mpr ⟨framework, text, readable, rfl⟩
  have hs : s = { options, host, program := ⟨[], options, host, []⟩ } :=
    PlainCompiler.start_eq started
  have hknows : s.knows l.place = false := by
    rw [hs]
    rfl
  have hinstalls : Installs (compilerWith digest) s k := by
    refine (PlainCompiler.installs_or_unchanged s rfl).resolve_right ?_
    rintro ⟨known, -⟩
    simp [hknows] at known
  have hroots : (after (compilerWith digest) s k).roots = [path] := by
    rw [Session.roots_after]
    show (s.addRoot l.place).roots = _
    rw [Session.addRoot_roots, hknows, hs, hplace]
    rfl
  have hsources : (after (compilerWith digest) s k).program.sources =
      sourcesOf digest host w.files [path] := by
    rw [PlainCompiler.program_of_installs hinstalls, hroots, hs]
  have hfound := PlainCompiler.source?_eq hsources (List.pairwise_singleton _ _)
    List.mem_cons_self (Path.same_self path)
  rw [readable] at hfound
  have hafter : (afterLoad (compilerWith digest) p l).session =
      after (compilerWith digest) s k := by
    rw [afterLoad_eq, hcall]
  refine (load_eq_answer digest (p := p) (l := l) framework readable).trans ?_
  rw [hplace, hafter, emit_eq_emittedFrom options hfound]
  rfl

theorem last_of_split {history : List α} {last i : α} {js is : List α}
    (h : history ++ [last] = js ++ i :: is) :
    (is = [] ∧ last = i) ∨ ∃ ms, is = ms ++ [last] ∧ i ∈ history := by
  rcases List.eq_nil_or_concat' is with rfl | ⟨ms, m, rfl⟩
  · obtain ⟨-, hlast⟩ := List.append_inj' h rfl
    exact .inl ⟨rfl, (List.cons.inj hlast).1⟩
  · have hsplit : history ++ [last] = (js ++ i :: ms) ++ [m] := by simpa using h
    obtain ⟨rfl, hlast⟩ := List.append_inj' hsplit rfl
    rw [(List.cons.inj hlast).1]
    exact .inr ⟨ms, rfl, by simp⟩

/-- The load `i` put a program in place, with the source of a path in the text `before`, and the
loads after it left the program alone. -/
structure MadeBy (digest : List Char → String) (host : ResourceHost)
    (p : Pipeline PlainCompiler.Program) (path : Path) (js : List (Load Unit)) (i : Load Unit)
    (is : List (Load Unit)) (before : List Char) : Prop where
  placed : ∃ k, call? p i = some k ∧
    Installs (compilerWith digest) (afterLoads (compilerWith digest) p js).session k
  kept : ¬ InstallsAmong (compilerWith digest)
    (afterLoads (compilerWith digest) p (js ++ [i])).session (is.filterMap (call? p))
  read : i.world.files.readText path = .ok before
  source : (afterLoads (compilerWith digest) p (js ++ [i])).session.program.source? path =
    some (analyzed digest host i.world.files path before)

section

variable {p : Pipeline PlainCompiler.Program} {path : Path} {js : List (Load Unit)}
  {i : Load Unit} {is : List (Load Unit)} {before : List Char}

theorem MadeBy.rebuilds_eq (h : MadeBy digest host p path js i is before) :
    let rebuilds ls := (afterLoads (compilerWith digest) p ls).session.rebuilds
    rebuilds (js ++ [i]) = rebuilds js + 1 ∧
      rebuilds (js ++ i :: is) = rebuilds (js ++ [i]) :=
  (rebuilds_iff (compilerWith digest) p js i is).mpr ⟨h.placed, h.kept⟩

/-- What the program has for a path stays as it was when the program was put in place. -/
theorem MadeBy.source_eq (h : MadeBy digest host p path js i is before) :
    (afterLoads (compilerWith digest) p (js ++ i :: is)).session.program.source? path =
      some (analyzed digest host i.world.files path before) := by
  have hkept := Session.program_of_not_installsAmong (compilerWith digest) _ _ h.kept
  rw [← h.source, ← hkept.1, List.append_cons, session_append]

variable {options : CompilerOptions} {w w' : World Unit} {s₀ : Session PlainCompiler.Program}
  {routes : Option RoutesModule} {transform : SourceTransform}

/-- What the program has for a root is what the load found that put the program in place. -/
theorem source?_of_loads
    (started : Session.start (compilerWith digest) options host w = (.ok s₀, w'))
    (normal : path.normalize = path) {js is : List (Load Unit)} {i : Load Unit} :
    let p : Pipeline PlainCompiler.Program := ⟨routes, s₀, transform⟩
    let s := (afterLoads (compilerWith digest) p (js ++ i :: is)).session
    (∃ k, call? p i = some k ∧
      Installs (compilerWith digest) (afterLoads (compilerWith digest) p js).session k) →
    ¬ InstallsAmong (compilerWith digest)
      (afterLoads (compilerWith digest) p (js ++ [i])).session (is.filterMap (call? p)) →
    s.stale = false → s.knows path = true → s.program.source? path =
      (i.world.files.readText path).toOption.map (analyzed digest host i.world.files path) := by
  intro p s placed kept fresh known
  obtain ⟨k, hk, installed⟩ := placed
  have hcalls : (js ++ i :: is).filterMap (call? p) =
      js.filterMap (call? p) ++ k :: is.filterMap (call? p) := by
    rw [List.filterMap_append, List.filterMap_cons, hk]
  have hs : s = afterAll (compilerWith digest) s₀
      (js.filterMap (call? p) ++ k :: is.filterMap (call? p)) := by
    rw [← hcalls]
    exact session_afterLoads (compilerWith digest) p _
  rw [session_afterLoads] at installed
  rw [session_afterLoads, calls_concat hk] at kept
  rw [hs] at fresh known ⊢
  have hnormal : ∀ j ∈ js.filterMap (call? p) ++ k :: is.filterMap (call? p),
      ∀ r, j.root? = some r → r.normalize = r := by
    intro j hj r asked
    rw [← hcalls] at hj
    exact normal_of_call? hj asked
  rw [← world_of_call? hk]
  exact PlainCompiler.source?_of_installs started hnormal normal installed kept fresh known

/-- A source in a session that is up to date was found by one of the loads. -/
theorem exists_madeBy
    (started : Session.start (compilerWith digest) options host w = (.ok s₀, w'))
    (normal : path.normalize = path) {ls : List (Load Unit)} {source : PlainCompiler.Source} :
    let p : Pipeline PlainCompiler.Program := ⟨routes, s₀, transform⟩
    let s := (afterLoads (compilerWith digest) p ls).session
    s.stale = false → s.knows path = true → s.program.source? path = some source →
    ∃ js i is before, ls = js ++ i :: is ∧ MadeBy digest host p path js i is before := by
  intro p s fresh known hsource
  obtain ⟨js, i, is, rfl, placed, kept⟩ := exists_made (p := p) started fresh known
  have hfound : s.program.source? path = _ :=
    source?_of_loads started normal placed kept fresh known
  cases hread : i.world.files.readText path with
  | error e =>
    rw [hread, hsource] at hfound
    cases hfound
  | ok before =>
    rw [hread] at hfound
    have hkept := Session.program_of_not_installsAmong (compilerWith digest) _ _ kept
    refine ⟨js, i, is, before, rfl, placed, kept, hread, ?_⟩
    rw [← hkept.1, ← session_append, List.append_assoc, List.singleton_append]
    exact hfound

/-- The source is the one that would be found now in its old text, if it still gives code. -/
theorem MadeBy.source_now {history : List (Load Unit)} {last : Load Unit}
    (h : MadeBy digest host p path js i is before) (hloads : history ++ [last] = js ++ i :: is)
    {k : Session.Call Unit} (hcall : call? p last = some k) (asked : k.root? = some path)
    (noCollision : ∀ l ∈ history, NoCollision digest l.world.files last.world.files) {e : Emitted}
    (emitted : Session.emit (compilerWith digest)
      (afterLoads (compilerWith digest) p (history ++ [last])).session path = .ok e) :
    analyzed digest host i.world.files path before =
      analyzed digest host last.world.files path before := by
  rcases last_of_split hloads with ⟨rfl, rfl⟩ | ⟨ms, rfl, hmem⟩
  · rfl
  · have kept := h.kept
    rw [calls_concat hcall] at kept
    have unchanged := PlainCompiler.unchanged_of_calls asked kept h.source
    rw [world_of_call? hcall] at unchanged
    rw [hloads] at emitted
    have present := PlainCompiler.present_of_emit digest emitted h.source_eq
    exact (PlainCompiler.analyzed_of_unchanged (noCollision i hmem) present unchanged).symm

/-- A load of the path itself put the program in place only in the text that the path has still. -/
theorem MadeBy.text_eq {history : List (Load Unit)} {last : Load Unit}
    (h : MadeBy digest host p path js i is before) (hloads : history ++ [last] = js ++ i :: is)
    (absolute : path.isAbsolute = true) (normal : path.normalize = path) {text : List Char}
    (hcall : call? p last = some ⟨.ensureCurrent path text, last.world⟩)
    (readable : last.world.files.readText path = .ok text) (own : i.path = path)
    (noCollision : ∀ l ∈ history, NoCollision digest l.world.files last.world.files) :
    before = text := by
  rcases last_of_split hloads with ⟨rfl, rfl⟩ | ⟨ms, rfl, hmem⟩
  · have hread := h.read
    rw [readable] at hread
    exact (Except.ok.inj hread).symm
  · let k : Session.Call Unit := ⟨.ensureCurrent path text, last.world⟩
    have kept := h.kept
    rw [calls_concat hcall] at kept
    obtain ⟨j, hj, -⟩ := h.placed
    obtain ⟨-, read, hread, rfl⟩ := call?_eq_some.mp hj
    rw [own, h.read] at hread
    obtain rfl := Except.ok.inj hread
    have hplace : i.place = path := by
      unfold Load.place
      rw [own]
      exact Path.absolutize_of_normal absolute normal _
    let s := (afterLoads (compilerWith digest) p (js ++ [i])).session
    have digest_i : s.digest? path = some (digest before) := by
      rw [show s = _ from session_concat _ hj js, ← hplace]
      exact Session.digest?_after (compilerWith digest) rfl
    have fresh : (afterAll (compilerWith digest) s
        (ms.filterMap (call? p) ++ [k])).stale = false := by
      rw [Session.afterAll_append]
      exact PlainCompiler.fresh_after _ rfl
    have digest_last : s.digest? path = some (digest text) :=
      Session.digests_of_not_installsAmong (compilerWith digest) s _ kept fresh k
        (List.mem_append_right _ List.mem_cons_self) path text rfl
    rw [digest_i] at digest_last
    exact noCollision i hmem path path before text h.read readable
      (Option.some.inj digest_last)

end

end

/-- What a load of a source of the framework answers after any loads before. The program was last
made by one of them or by the load itself, and the answer has the code of the text that the path had
by then. A fresh pipeline answers with the code of the text of now, so the two agree exactly if both
texts give the same code; they are one text when the program was last made for the path itself. -/
theorem load_after_loads (digest : List Char → String) {options : CompilerOptions}
    {host : ResourceHost} {w w' : World Unit} {s₀ : Session PlainCompiler.Program}
    (started : Session.start (compilerWith digest) options host w = (.ok s₀, w'))
    (routes : Option RoutesModule) (transform : SourceTransform) (history : List (Load Unit))
    (last : Load Unit) (absolute : last.path.isAbsolute = true)
    (normal : last.path.normalize = last.path)
    (framework : dispatch ⟨routes, s₀, transform⟩ last.path = some .framework)
    (noCollision : ∀ l ∈ history, NoCollision digest l.world.files last.world.files)
    {x : Option Loaded} (loaded : (load (compilerWith digest)
      (afterLoads (compilerWith digest) ⟨routes, s₀, transform⟩ history) last.path
      last.world).1 = .ok x) :
    let rebuilds (ls : List (Load Unit)) : Nat :=
      (afterLoads (compilerWith digest) ⟨routes, s₀, transform⟩ ls).session.rebuilds
    let answers := loadedFrom digest options host last.world.files last.path
    ∃ js i is before text, history ++ [last] = js ++ i :: is ∧
      (rebuilds (js ++ [i]) = rebuilds js + 1 ∧
        rebuilds (history ++ [last]) = rebuilds (js ++ [i])) ∧
      i.world.files.readText last.path = .ok before ∧
      last.world.files.readText last.path = .ok text ∧
      (i.path = last.path → before = text) ∧
      answers before text = .ok x ∧
      ∀ v v' s u, Session.start (compilerWith digest) options host v = (.ok s, v') →
        u.files = last.world.files →
        (load (compilerWith digest) ⟨routes, s, transform⟩ last.path u).1 = answers text text ∧
        ((load (compilerWith digest) ⟨routes, s, transform⟩ last.path u).1 = .ok x ↔
          answers text text = answers before text) := by
  let c := compilerWith digest
  let p : Pipeline PlainCompiler.Program := ⟨routes, s₀, transform⟩
  intro rebuilds answers
  have hframework : (afterLoads c p history).dispatch last.path = some .framework := by
    rw [dispatch_afterLoads]
    exact framework
  obtain ⟨text, readable⟩ := readable_of_load hframework loaded
  have hplace : last.place = last.path := Path.absolutize_of_normal absolute normal _
  have hcall : call? p last = some ⟨.ensureCurrent last.path text, last.world⟩ :=
    call?_eq_some.mpr ⟨framework, text, readable, by rw [hplace]⟩
  let s := (afterLoads c p (history ++ [last])).session
  have hs : s = after c (afterLoads c p history).session
      ⟨.ensureCurrent last.path text, last.world⟩ := session_concat c hcall history
  have hanswer : answer last.path last.path text (Session.emit c s last.path) = .ok x := by
    have h := load_eq_answer digest hframework readable
    rw [hplace] at h
    rw [← loaded, h]
    show _ = answer _ _ _ (Session.emit c (afterLoads c (afterLoads c p history) [last]).session _)
    rw [← afterLoads_append]
  obtain ⟨e, emitted⟩ := emitted_of_answer hanswer
  obtain ⟨source, hsource⟩ := PlainCompiler.exists_source_of_emit digest emitted
  have fresh : s.stale = false := by
    rw [hs]
    exact PlainCompiler.fresh_after _ rfl
  have known : s.knows last.path = true := by
    rw [hs]
    exact Session.knows_after c rfl
  obtain ⟨js, i, is, before, hloads, made⟩ := exists_madeBy started normal fresh known hsource
  have hnow : s.program.source? last.path =
      some (analyzed digest host last.world.files last.path before) := by
    rw [← made.source_now hloads hcall rfl noCollision emitted, ← made.source_eq, ← hloads]
  have hx : answers before text = .ok x := by
    rw [← hanswer, emit_eq_emittedFrom options hnow]
    rfl
  refine ⟨js, i, is, before, text, hloads, ?_, made.read, readable, ?_, hx, ?_⟩
  · rw [hloads]
    exact made.rebuilds_eq
  · intro own
    exact made.text_eq hloads absolute normal hcall readable own noCollision
  · intro v v' s' u started' hfiles
    have hfresh : (load c ⟨routes, s', transform⟩ last.path u).1 = answers text text := by
      have h := load_fresh started' routes transform absolute normal (w := u) framework
        (by rw [hfiles]; exact readable)
      rw [h, hfiles]
    refine ⟨hfresh, ?_⟩
    rw [hfresh, hx]

namespace Trial

/-- Two files, of which the first has the given text. -/
def world (text : String) : World Unit where
  files := ⟨"/", [(["a.ts".toList], .file (some text.toList)),
    (["c.ts".toList], .file (some "c;".toList))]⟩
  state := ()

def host : ResourceHost := ⟨none, .unchanged⟩

def session : Session PlainCompiler.Program :=
  { options := .standard, host, program := ⟨[], .standard, host, []⟩ }

def pipeline : Pipeline PlainCompiler.Program := ⟨none, session, .unchanged⟩

/-- The first file has another text while the second one is loaded. -/
def history : List (Load Unit) := [⟨"/a.ts", world "a;"⟩, ⟨"/c.ts", world "b;"⟩]

def last : Load Unit := ⟨"/a.ts", world "a;"⟩

def plain (code : String) : Loaded := ⟨instrument code.toList .plainModule, .js⟩

theorem started : Session.start PlainCompiler.compiler .standard host (world "") =
    (.ok session, world "") := rfl

theorem noCollision : ∀ l ∈ history,
    NoCollision (fun s => fingerprint (String.ofList s)) l.world.files last.world.files := by
  have distinct : [['a', ';'], ['b', ';'], ['c', ';']].Pairwise fun a b =>
      fingerprint (String.ofList a) ≠ fingerprint (String.ofList b) := by
    decide +kernel
  intro l hl
  refine PlainCompiler.noCollision_of_texts distinct ?_ ?_
  · simp only [history, List.mem_cons, List.not_mem_nil, or_false] at hl
    rcases hl with rfl | rfl
    all_goals simp [world]
  · simp [last, world]

end Trial

set_option maxRecDepth 10000 in
theorem load_after_loads_trial :
    let answers := loadedFrom (fun s => fingerprint (String.ofList s)) .standard Trial.host
      (Trial.world "a;").files "/a.ts"
    ∃ js i is before text, Trial.history ++ [Trial.last] = js ++ i :: is ∧
      i.world.files.readText "/a.ts" = .ok before ∧
      (Trial.world "a;").files.readText "/a.ts" = .ok text ∧
      answers before text = .ok (some (Trial.plain "b;\n")) ∧
      (load PlainCompiler.compiler Trial.pipeline "/a.ts" (Trial.world "a;")).1 =
        answers text text := by
  obtain ⟨js, i, is, before, text, hloads, -, hbefore, htext, -, hanswer, hfresh⟩ :=
    load_after_loads _ Trial.started none .unchanged Trial.history Trial.last rfl (by decide)
      (by decide) Trial.noCollision (x := some (Trial.plain "b;\n")) (by decide +kernel)
  exact ⟨js, i, is, before, text, hloads, hbefore, htext, hanswer,
    (hfresh _ _ _ (Trial.world "a;") Trial.started rfl).1⟩

set_option maxRecDepth 10000 in
/-- A text that is there again is not noticed after another load read the one in between: the code
of that one is loaded, where a fresh pipeline loads the code of the text that is there. -/
theorem reverted_source_loads_other_code :
    (load PlainCompiler.compiler
      (afterLoads PlainCompiler.compiler Trial.pipeline Trial.history) "/a.ts"
      (Trial.world "a;")).1 = .ok (some (Trial.plain "b;\n")) ∧
    (load PlainCompiler.compiler Trial.pipeline "/a.ts" (Trial.world "a;")).1 =
      .ok (some (Trial.plain "a;\n")) := by
  decide +kernel

end Pipeline

end LiveLoader
