import LiveLoader.Proofs.Pipeline.Reload

/-!
# Sources left out

A root that cannot be read while a program is made is left out of it, and stays a root. When the file
is there again, with the text that it was last loaded with, nothing tells that the program has no
source for it. The main statement says that these are the loads that fail with an unknown source.
-/

namespace LiveLoader

open PlainCompiler (compilerWith)

namespace Pipeline

section

variable {digest : List Char → String}

theorem answer_eq_error {path place : Path} {text : List Char} {r : Result Emitted}
    {e : BuildError} : answer path place text r = .error ⟨path, e⟩ ↔ r = .error e := by
  unfold answer
  rw [mapError_eq_error]
  cases r with
  | error e' =>
    constructor
    · rintro ⟨e'', h, he⟩
      cases he
      exact congrArg _ (Except.error.inj h)
    · intro h
      exact ⟨e, congrArg _ (Except.error.inj h), rfl⟩
  | ok a =>
    constructor
    · rintro ⟨e'', h, -⟩
      cases h
    · intro h
      cases h

variable {p : Pipeline PlainCompiler.Program} {last : Load Unit} {text : List Char}

/-- After a load of a readable file the session is up to date and has the file among its roots. -/
theorem ready_of_load (absolute : last.path.isAbsolute = true)
    (normal : last.path.normalize = last.path)
    (framework : p.dispatch last.path = some .framework)
    (readable : last.world.files.readText last.path = .ok text) (history : List (Load Unit)) :
    let s := (afterLoads (compilerWith digest) p (history ++ [last])).session
    s.stale = false ∧ s.knows last.path = true := by
  intro s
  have hplace : last.place = last.path := Path.absolutize_of_normal absolute normal _
  have hcall : call? p last = some ⟨.ensureCurrent last.path text, last.world⟩ :=
    call?_eq_some.mpr ⟨framework, text, readable, by rw [hplace]⟩
  have hs : s = Session.after (compilerWith digest) _ _ :=
    session_concat (compilerWith digest) hcall history
  rw [hs]
  exact ⟨PlainCompiler.fresh_after _ rfl, Session.knows_after (compilerWith digest) rfl⟩

/-- A load of a readable file fails with an unknown source if the session then has none for it. -/
theorem load_eq_unknownSource (absolute : last.path.isAbsolute = true)
    (normal : last.path.normalize = last.path)
    (framework : p.dispatch last.path = some .framework)
    (readable : last.world.files.readText last.path = .ok text) (history : List (Load Unit)) :
    (∃ q, (load (compilerWith digest) (afterLoads (compilerWith digest) p history) last.path
        last.world).1 = .error ⟨last.path, .unknownSource q⟩) ↔
      (afterLoads (compilerWith digest) p (history ++ [last])).session.program.source?
        last.path = none := by
  have hplace : last.place = last.path := Path.absolutize_of_normal absolute normal _
  have hframework : (afterLoads (compilerWith digest) p history).dispatch last.path =
      some .framework := by
    rw [dispatch_afterLoads]
    exact framework
  have hload := load_eq_answer digest hframework readable
  rw [hplace] at hload
  have hafter : afterLoad (compilerWith digest) (afterLoads (compilerWith digest) p history) last =
      afterLoads (compilerWith digest) p (history ++ [last]) := by
    rw [afterLoads_append]
    rfl
  rw [hload, hafter]
  simp only [answer_eq_error, PlainCompiler.emit_eq_unknownSource, exists_and_left, exists_eq,
    and_true]

end

/-- A load of a source of the framework that can be read fails with an unknown source exactly if the
file could not be read during the load that last put a program in place, and the load itself puts
none there. -/
theorem load_unknownSource_iff (digest : List Char → String) {options : CompilerOptions}
    {host : ResourceHost} {w w' : World Unit} {s₀ : Session PlainCompiler.Program}
    (started : Session.start (compilerWith digest) options host w = (.ok s₀, w'))
    (routes : Option RoutesModule) (transform : SourceTransform) (history : List (Load Unit))
    (last : Load Unit) (absolute : last.path.isAbsolute = true)
    (normal : last.path.normalize = last.path)
    (framework : dispatch ⟨routes, s₀, transform⟩ last.path = some .framework)
    {text : List Char} (readable : last.world.files.readText last.path = .ok text) :
    let c := compilerWith digest
    let loads (ls : List (Load Unit)) := afterLoads c ⟨routes, s₀, transform⟩ ls
    let rebuilds (ls : List (Load Unit)) : Nat := (loads ls).session.rebuilds
    (∃ q, (load c (loads history) last.path last.world).1 =
        .error ⟨last.path, .unknownSource q⟩) ↔
      ∃ js i is, history = js ++ i :: is ∧
        (rebuilds (js ++ [i]) = rebuilds js + 1 ∧
          rebuilds (history ++ [last]) = rebuilds (js ++ [i])) ∧
        ∀ t, i.world.files.readText last.path ≠ .ok t := by
  intro c loads rebuilds
  let p : Pipeline PlainCompiler.Program := ⟨routes, s₀, transform⟩
  let s := (afterLoads c p (history ++ [last])).session
  obtain ⟨fresh, known⟩ : s.stale = false ∧ s.knows last.path = true :=
    ready_of_load absolute normal framework readable history
  refine (load_eq_unknownSource absolute normal framework readable history).trans ?_
  constructor
  · intro missing
    obtain ⟨js, i, is, hsplit, placed, kept⟩ := exists_made (p := p) started fresh known
    simp only [s, hsplit] at fresh known missing
    have hfound := source?_of_loads started normal placed kept fresh known
    rw [missing] at hfound
    have unreadable : ∀ t, i.world.files.readText last.path ≠ .ok t := by
      intro t hread
      rw [hread] at hfound
      cases hfound
    rcases last_of_split hsplit with ⟨rfl, rfl⟩ | ⟨ms, rfl, -⟩
    · exact absurd readable (unreadable text)
    · have hhistory : history = js ++ i :: ms := by
        rw [← List.cons_append, ← List.append_assoc] at hsplit
        exact List.append_cancel_right hsplit
      refine ⟨js, i, ms, hhistory, ?_, unreadable⟩
      rw [hsplit]
      exact (rebuilds_iff c p js i _).mpr ⟨placed, kept⟩
  · rintro ⟨js, i, is, rfl, counted, unreadable⟩
    have hsplit : js ++ i :: is ++ [last] = js ++ i :: (is ++ [last]) := by simp
    simp only [rebuilds, s] at counted fresh known ⊢
    rw [hsplit] at counted fresh known ⊢
    obtain ⟨placed, kept⟩ := (rebuilds_iff c p js i _).mp counted
    refine (source?_of_loads started normal placed kept fresh known).trans ?_
    cases hread : i.world.files.readText last.path with
    | error e => rfl
    | ok t => exact absurd hread (unreadable t)

namespace Trial

/-- The first file is gone while the second one is loaded. -/
def gone : World Unit where
  files := ⟨"/", [(["c.ts".toList], .file (some "c;".toList))]⟩
  state := ()

def goneHistory : List (Load Unit) := [⟨"/a.ts", world "a;"⟩, ⟨"/c.ts", gone⟩]

end Trial

theorem load_unknownSource_iff_trial :
    ∃ q, (load PlainCompiler.compiler
      (afterLoads PlainCompiler.compiler Trial.pipeline Trial.goneHistory) "/a.ts"
      (Trial.world "a;")).1 = .error ⟨"/a.ts", .unknownSource q⟩ := by
  have readable : (Trial.world "a;").files.readText "/a.ts" = .ok "a;".toList := by decide
  refine (load_unknownSource_iff _ Trial.started none .unchanged Trial.goneHistory Trial.last rfl
    (by decide) (by decide) readable).mpr
    ⟨[⟨"/a.ts", Trial.world "a;"⟩], ⟨"/c.ts", Trial.gone⟩, [], rfl, ?_, ?_⟩
  · decide +kernel
  · have unreadable : Trial.gone.files.readText "/a.ts" = .error .missing := by decide
    intro t hread
    cases unreadable.symm.trans hread

/-- A file is removed while another one is loaded, and is back with the same text: its load fails
with an unknown source, where a fresh pipeline loads its code. -/
theorem restored_source_is_unknown :
    (Trial.world "a;").files.readText "/a.ts" = .ok "a;".toList ∧
    (load PlainCompiler.compiler
      (afterLoads PlainCompiler.compiler Trial.pipeline Trial.goneHistory) "/a.ts"
      (Trial.world "a;")).1 = .error ⟨"/a.ts", .unknownSource "/a.ts"⟩ ∧
    (load PlainCompiler.compiler Trial.pipeline "/a.ts" (Trial.world "a;")).1 =
      .ok (some (Trial.plain "a;\n")) := by
  decide +kernel

end Pipeline

end LiveLoader
