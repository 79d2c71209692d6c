import LiveLoader.Proofs.PlainCompiler.Analysis
import LiveLoader.Proofs.Session.Texts

/-!
# Sessions with the plain compiler

No request fails, and what is emitted for a path depends on the source alone that the program has
for it.
-/

namespace LiveLoader.PlainCompiler

open Session (Call Installs InstallsAmong after afterAll)

section

variable (digest : List Char → String)

/-- What is emitted depends on the source for the path alone. -/
theorem emit_of_source? {s t : Session Program} {path : Path}
    (h : s.program.source? path = t.program.source? path) :
    Session.emit (compilerWith digest) s path = Session.emit (compilerWith digest) t path := by
  unfold Session.emit
  simp only [compilerWith, emit, dependencies, Session.emitTransformers, h]
  rfl

theorem exists_source_of_emit {s : Session Program} {path : Path} {e : Emitted}
    (h : Session.emit (compilerWith digest) s path = .ok e) :
    ∃ source, s.program.source? path = some source := by
  unfold Session.emit at h
  cases hs : s.program.source? path with
  | none => simp [compilerWith, hs] at h
  | some source => exact ⟨source, rfl⟩

/-- A source that misses a resource has no output. -/
theorem present_of_emit {s : Session Program} {path : Path} {e : Emitted} {source : Source}
    (h : Session.emit (compilerWith digest) s path = .ok e)
    (hs : s.program.source? path = some source) (file : Path) :
    source.resources ≠ .missing file := by
  intro hmissing
  unfold Session.emit at h
  simp only [compilerWith, hs, Option.isSome_some, Bool.not_true, Bool.false_eq_true, if_false,
    emit, emitSource, hmissing] at h
  by_cases hd : isDeclarationFile path = true
  · simp [hd, pure, Except.pure] at h
  · simp [hd, throw, throwThe, MonadExceptOf.throw, bind, Except.bind] at h

theorem transpile_eq_error {path : Path} {text : List Char} {e : BuildError}
    (h : transpile path text = .error e) :
    ∃ cause, e = .parse path cause ∨ e = .transformFailure path cause := by
  unfold transpile at h
  simp only at h
  split at h
  · unfold transpileProgram at h
    split at h
    · cases h
    · split at h
      · cases h
      · cases h
        exact ⟨_, .inr rfl⟩
  · cases h
    exact ⟨_, .inl rfl⟩

theorem rewrite_eq_error {path : Path} {text : List Char} {e : BuildError}
    (h : Bootstrap.rewrite path text = .error e) : ∃ cause, e = .parse path cause := by
  unfold Bootstrap.rewrite at h
  split at h
  · cases h
    exact ⟨_, rfl⟩
  · cases h

/-- What comes out for a source is its text with the resources in it, rewritten and transpiled. -/
theorem emitSource_eq (source : Source) (path : Path) :
    emitSource source path { before := [.bootstrap] } =
      if isDeclarationFile path then .ok []
      else match source.resources with
        | .missing file => .error (.resourceNotFound file)
        | _ => do
          let rewritten ← Bootstrap.rewrite path source.inlinedText
          let code ← transpile path rewritten
          return if isEmptyModule code then [] else [⟨outputName path, code⟩] := by
  have hbefore (text : List Char) : Transformers.applyBefore { before := [.bootstrap] } path text =
      Bootstrap.rewrite path text := by
    show (Bootstrap.rewrite path text >>= fun text => .ok text) = _
    cases Bootstrap.rewrite path text <;> rfl
  have hafter (code : List Char) : (do
      if isEmptyModule code then return []
      let code ← Transformers.applyAfter { before := [.bootstrap] } path code
      return [⟨outputName path, code⟩] : Result (List Artifact)) =
      .ok (if isEmptyModule code then [] else [⟨outputName path, code⟩]) := by
    split <;> rfl
  unfold emitSource
  simp only [hbefore, hafter]
  split
  · rfl
  · cases source.resources <;> rfl

theorem emitSource_ne_unknownSource (source : Source) (path q : Path) :
    emitSource source path { before := [.bootstrap] } ≠ .error (.unknownSource q) := by
  intro h
  rw [emitSource_eq] at h
  split at h
  · cases h
  · split at h
    · cases h
    · rcases bind_eq_error.mp h with h | ⟨rewritten, -, h⟩
      · obtain ⟨cause, heq⟩ := rewrite_eq_error h
        cases heq
      · rcases bind_eq_error.mp h with h | ⟨code, -, h⟩
        · obtain ⟨cause, heq | heq⟩ := transpile_eq_error h <;> cases heq
        · cases h

theorem emitSource_eq_ok {source : Source} {path : Path} {artifacts : List Artifact}
    (h : emitSource source path { before := [.bootstrap] } = .ok artifacts) :
    artifacts = [] ∨ ∃ rewritten code, Bootstrap.rewrite path source.inlinedText = .ok rewritten ∧
      transpile path rewritten = .ok code ∧ isEmptyModule code = false ∧
      artifacts = [⟨outputName path, code⟩] := by
  rw [emitSource_eq] at h
  split at h
  · cases h
    exact .inl rfl
  · split at h
    · cases h
    · obtain ⟨rewritten, hrewritten, h⟩ := bind_eq_ok.mp h
      obtain ⟨code, hcode, h⟩ := bind_eq_ok.mp h
      have h := Except.ok.inj h
      split at h
      · exact .inl h.symm
      · next running =>
        exact .inr ⟨rewritten, code, hrewritten, hcode, Bool.eq_false_iff.mpr running, h.symm⟩

/-- The compiler runs the session's own transformer alone, on the source for the path. -/
theorem emit_eq_emitSource {s : Session Program} {path : Path} {source : Source}
    (hs : s.program.source? path = some source) :
    (compilerWith digest).emit s.program path (Session.emitTransformers (compilerWith digest) s) =
      emitSource source path { before := [.bootstrap] } := by
  show emit s.program path _ = _
  rw [emit, hs]
  rfl

theorem emit_eq_ok {s : Session Program} {path : Path} {e : Emitted}
    (h : Session.emit (compilerWith digest) s path = .ok e) :
    ∃ source rewritten, s.program.source? path = some source ∧
      Bootstrap.rewrite path source.inlinedText = .ok rewritten ∧
      transpile path rewritten = .ok e.code := by
  obtain ⟨source, hs⟩ := exists_source_of_emit digest h
  unfold Session.emit at h
  rw [emit_eq_emitSource digest hs] at h
  split at h
  case isTrue => cases h
  case isFalse =>
    cases he : emitSource source path { before := [.bootstrap] } with
    | error cause =>
      rw [he] at h
      cases h
    | ok artifacts =>
      simp only [he] at h
      rcases emitSource_eq_ok he with rfl | ⟨rewritten, code, hrewritten, hcode, -, rfl⟩
      · cases h
      · split at h
        case h_1 => cases h
        case h_2 a ha =>
          have hmem := List.mem_of_getLast? ha
          obtain rfl : a = ⟨outputName path, code⟩ :=
            List.mem_singleton.mp (List.mem_filter.mp hmem).1
          cases h
          exact ⟨source, rewritten, hs, hrewritten, hcode⟩

/-- A path is unknown exactly if the program has no source for it. -/
theorem emit_eq_unknownSource {s : Session Program} {path q : Path} :
    Session.emit (compilerWith digest) s path = .error (.unknownSource q) ↔
      s.program.source? path = none ∧ q = path := by
  unfold Session.emit
  cases hs : s.program.source? path with
  | none => simp [compilerWith, hs, eq_comm]
  | some source =>
    have hemit := emit_eq_emitSource digest hs
    have hknown : (compilerWith digest).contains s.program path = true := by
      show (s.program.source? path).isSome = true
      rw [hs]
      rfl
    have hne := emitSource_ne_unknownSource source path q
    rw [hknown, hemit]
    refine ⟨fun h => ?_, nofun⟩
    cases he : emitSource source path { before := [.bootstrap] } with
    | error e =>
      simp only [he, Bool.not_true, Bool.false_eq_true, if_false] at h
      rw [Except.error.inj h] at he
      exact absurd he hne
    | ok artifacts =>
      simp only [he, Bool.not_true, Bool.false_eq_true, if_false] at h
      split at h <;> cases h

/-- Any program can be made, so no request fails. -/
theorem ensure_ok (s : Session Program) (path : Path) (w : World Unit) :
    ∃ b, (Session.ensure (compilerWith digest) s path w).1 = .ok b := by
  rcases Session.ensure_cases (compilerWith digest) s path w with ⟨-, -, -, h⟩ | ⟨v, -, h⟩
  · exact ⟨false, by rw [h]⟩
  · obtain ⟨es, hb⟩ := build_eq digest s.host (s.addRoot path).roots s.options v
    refine ⟨true, ?_⟩
    rw [h, Session.renew_result, hb]
    rfl

theorem reply_ok (s : Session Program) {k : Call Unit} {path : Path}
    (asked : k.root? = some path) :
    ∃ b, Session.reply (compilerWith digest) s k = .ensured (.ok b) := by
  rw [Session.reply_of_root? (compilerWith digest) s asked]
  obtain ⟨b, hb⟩ := ensure_ok digest (Session.noted (compilerWith digest) s k) path k.world
  exact ⟨b, by rw [hb]⟩

theorem compileSource_eq (s : Session Program) (path : Path) (text : List Char)
    (w : World Unit) : (Session.compileSource (compilerWith digest) s path text w).1 =
    Session.emit (compilerWith digest)
      (after (compilerWith digest) s ⟨.ensureCurrent path text, w⟩) path := by
  obtain ⟨b, hb⟩ := ensure_ok digest (Session.noteText (compilerWith digest) s path text) path w
  have hafter : after (compilerWith digest) s ⟨.ensureCurrent path text, w⟩ =
      (Session.ensureCurrent (compilerWith digest) s path text w).2.1 := rfl
  rw [hafter, Session.compileSource]
  rcases he : Session.ensureCurrent (compilerWith digest) s path text w with ⟨r, s', w'⟩
  rw [show r = .ok b from (congrArg Prod.fst he).symm.trans hb]
  rfl

end

section

variable {digest : List Char → String} {options : CompilerOptions} {host : ResourceHost}
  {w w' : World Unit} {s₀ : Session Program}

/-- The program that a call puts in place has the sources as they are in the call's world. -/
theorem program_of_installs {s : Session Program} {k : Call Unit}
    (h : Installs (compilerWith digest) s k) :
    let t := after (compilerWith digest) s k
    t.program = ⟨t.roots, s.options, s.host,
      sourcesOf digest s.host k.world.files t.roots⟩ := by
  intro t
  obtain ⟨v, place, v', built⟩ := Session.made_of_installs (compilerWith digest) s h
  have hv : v = k.world := by
    rcases place with rfl | rfl
    · rfl
    · rfl
  subst hv
  obtain ⟨es, hb⟩ := build_eq digest s.host t.roots s.options k.world
  rw [hb] at built
  exact (Except.ok.inj (congrArg Prod.fst built)).symm

/-- A call for a path puts a program in place unless the path is known and no input changed. -/
theorem installs_or_unchanged (s : Session Program) {k : Call Unit} {path : Path}
    (asked : k.root? = some path) : Installs (compilerWith digest) s k ∨
      (s.knows path = true ∧ inputsChanged digest s.program k.world.files = false) := by
  unfold Session.Installs
  have hok := reply_ok digest s asked
  have hs := Session.step_after (compilerWith digest) s k
  generalize Session.reply (compilerWith digest) s k = r,
    after (compilerWith digest) s k = t at hs hok
  cases hs with
  | emit p hp => simp [Call.root?, hp] at asked
  | keep p hp known fresh unchanged =>
    obtain rfl : p = path := Option.some.inj (hp.symm.trans asked)
    exact .inr ⟨known, unchanged⟩
  | fail => simp at hok
  | install => exact .inl rfl

theorem fresh_after (s : Session Program) {k : Call Unit} {path : Path}
    (asked : k.root? = some path) : (after (compilerWith digest) s k).stale = false := by
  obtain ⟨b, hb⟩ := reply_ok digest s asked
  exact Session.fresh_of_ensured (compilerWith digest) hb

theorem start_eq (started : Session.start (compilerWith digest) options host w = (.ok s₀, w')) :
    s₀ = { options, host, program := ⟨[], options, host, []⟩ } := by
  obtain ⟨program, rfl, v, made⟩ := Session.start_eq started
  obtain ⟨es, hb⟩ := build_eq digest host [] options w
  rw [hb] at made
  obtain rfl := Except.ok.inj (congrArg Prod.fst made)
  rfl

/-- What a session that is up to date has for a path is what the call found that put the program in
place: the source in the text that the file had by then, or none if it could not be read. -/
theorem source?_of_installs
    (started : Session.start (compilerWith digest) options host w = (.ok s₀, w'))
    {hs is : List (Call Unit)} {k : Call Unit}
    (normal : ∀ j ∈ hs ++ k :: is, ∀ r, j.root? = some r → r.normalize = r)
    {path : Path} (hpath : path.normalize = path)
    (installed : Installs (compilerWith digest) (afterAll (compilerWith digest) s₀ hs) k)
    (kept : ¬ InstallsAmong (compilerWith digest)
      (afterAll (compilerWith digest) s₀ (hs ++ [k])) is) :
    let s := afterAll (compilerWith digest) s₀ (hs ++ k :: is)
    s.stale = false → s.knows path = true → s.program.source? path =
      (k.world.files.readText path).toOption.map
        (analyzed digest host k.world.files path) := by
  intro s fresh known
  have hs' : s = afterAll (compilerWith digest)
      (afterAll (compilerWith digest) s₀ (hs ++ [k])) is := by
    rw [← Session.afterAll_append, List.append_assoc, List.singleton_append]
  obtain ⟨hprogram, hroots⟩ :=
    Session.program_of_not_installsAmong (compilerWith digest) _ is kept
  rw [← hs'] at hprogram hroots
  have hc : Session.Consistent options host s := Session.Consistent.of_calls started _
  have hcs := Session.Consistent.of_calls started hs
  obtain ⟨r, hr, hsame⟩ := (hc.known_iff path).mp known
  obtain rfl : r = path := by
    rcases Session.root_of_calls (compilerWith digest) hr with h | ⟨j, hj, asked⟩
    · rw [start_eq started] at h
      simp at h
    · exact Path.eq_of_same (normal j hj r asked) hpath hsame
  have hmade := program_of_installs installed
  simp only [← Session.afterAll_concat, hcs.options_eq, hcs.host_eq] at hmade
  have hsources : s.program.sources = sourcesOf digest host k.world.files s.roots := by
    rw [hprogram, hmade, (hroots fresh).2]
  exact source?_eq hsources hc.distinct hr (Path.same_self r)

/-- As long as no program is put in place, the last call for a path found the sources unchanged. -/
theorem unchanged_of_calls {s : Session Program} {is : List (Call Unit)} {last : Call Unit}
    {path : Path} (asked : last.root? = some path)
    (kept : ¬ InstallsAmong (compilerWith digest) s (is ++ [last])) {source : Source}
    (hsource : s.program.source? path = some source) :
    source.changed digest last.world.files = false := by
  rw [Session.installsAmong_append, not_or] at kept
  obtain ⟨hprogram, -⟩ := Session.program_of_not_installsAmong (compilerWith digest) s is kept.1
  have hlast : ¬ Installs (compilerWith digest) (afterAll (compilerWith digest) s is) last :=
    (not_or.mp kept.2).1
  have hunchanged := ((installs_or_unchanged _ asked).resolve_left hlast).2
  rw [hprogram] at hunchanged
  exact changed_of_source? hunchanged hsource

end

end LiveLoader.PlainCompiler
