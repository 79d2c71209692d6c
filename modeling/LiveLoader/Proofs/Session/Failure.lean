import LiveLoader.Proofs.Session.Roots

/-!
# Failures of a session

A root stays a root when no program can be made with it, and the session stays stale. So a failure
is not one of its own file: from then on every file waits for a program over all roots, the failing
one among them.
-/

namespace LiveLoader.Session

section

variable (c : Compiler σ Program)

/-- What is emitted depends on the program alone. -/
theorem emit_congr {s t : Session Program} (h : s.program = t.program) (path : Path) :
    emit c s path = emit c t path := by
  unfold emit emitTransformers
  rw [h]

/-- In a stale session a file is compiled from a program made anew over all roots and itself. -/
theorem compile_of_stale {s : Session Program} (h : s.stale = true) (path : Path) (w : World σ) :
    (compile c s path w).1 = (build c (s.addRoot path).roots s.options s.host w).1.bind
      fun program => emit c { s with program } path := by
  unfold compile
  rw [ensure_of_stale c s path h]
  rcases renew_cases c s path w with ⟨e, w', built, hr⟩ | ⟨program, w', built, hr⟩
  · rw [hr, built]
    rfl
  · rw [hr, built]
    exact emit_congr c rfl path

theorem compileSource_of_stale {s : Session Program} (h : s.stale = true) (path : Path)
    (text : List Char) (w : World σ) :
    (compileSource c s path text w).1 = (compile c s path w).1 := by
  let k : Call σ := ⟨.ensureCurrent path text, w⟩
  have hn : (noted c s k).stale = true := noted_stale c s k h
  show (compile c (noted c s k) path w).1 = _
  rw [compile_of_stale c hn, compile_of_stale c h, noted_addRoot_roots, noted_options, noted_host]
  congr 1

/-- Where no program can be made with a root, none is put in place. -/
theorem not_installsAmong_of_unbuildable {options : CompilerOptions} {host : ResourceHost}
    {b : Path}
    (unbuildable : ∀ roots w, (∃ r ∈ roots, r.same b = true) →
      ∃ e, (build c roots options host w).1 = .error e)
    {s : Session Program} (hs : Consistent options host s) (hb : ∃ r ∈ s.roots, r.same b = true)
    (ks : List (Call σ)) : ¬ InstallsAmong c s ks := by
  induction ks generalizing s with
  | nil => exact id
  | cons k ks ih =>
    obtain ⟨r, hr, hrb⟩ := hb
    have hroots : r ∈ (after c s k).roots := (roots_prefix_after c k).subset hr
    refine not_or.mpr ⟨?_, ih (hs.call c k) ⟨r, hroots, hrb⟩⟩
    intro hi
    obtain ⟨w, -, w', made⟩ := made_of_installs c s hi
    rw [hs.options_eq, hs.host_eq] at made
    obtain ⟨e, he⟩ := unbuildable (after c s k).roots w ⟨r, hroots, hrb⟩
    simp [made] at he

/-- Until a program is put in place, a file is compiled from one over all roots and the file. -/
theorem compile_of_not_installsAmong {options : CompilerOptions} {host : ResourceHost}
    {s : Session Program} (hs : Consistent options host s) (stale : s.stale = true)
    {ks : List (Call σ)} (h : ¬ InstallsAmong c s ks) (path : Path) (w : World σ) :
    let t := afterAll c s ks
    (compile c t path w).1 = ((build c (t.addRoot path).roots options host w).1.bind
        fun program => emit c { t with program } path) ∧
      ∀ text, (compileSource c t path text w).1 = (compile c t path w).1 := by
  intro t
  have ht : Consistent options host t := afterAll_induction c hs (fun _ k h => h.call c k) ks
  have tstale : t.stale = true := stale_of_not_installsAmong c s h stale
  refine ⟨?_, fun text => compileSource_of_stale c tstale path text w⟩
  rw [compile_of_stale c tstale, ht.options_eq, ht.host_eq]

end

/-- After a call for `b` failed, `b` stays a root, and what is emitted stays the same. But until
some program is put in place, a file is compiled exactly if a program can be made over all roots,
`b` among them, and emits the file. If no program can be made with `b`, no file is compiled any
more. -/
theorem compile_after_failure (c : Compiler σ Program) {options : CompilerOptions}
    {host : ResourceHost} {w w' : World σ} {s₀ : Session Program}
    (started : start c options host w = (.ok s₀, w')) (ks : List (Call σ)) {k : Call σ} {b : Path}
    (asked : k.root? = some b) {e : BuildError}
    (failed : reply c (afterAll c s₀ ks) k = .ensured (.error e)) :
    let s := afterAll c s₀ ks
    let s' := after c s k
    (s'.roots = (s.addRoot b).roots ∧ (∃ r ∈ s'.roots, r.same b = true) ∧
      ∀ p, emit c s' p = emit c s p) ∧
    (∀ js, ¬ InstallsAmong c s' js → ∀ p v,
      let t := afterAll c s' js
      (compile c t p v).1 = ((build c (t.addRoot p).roots options host v).1.bind
          fun program => emit c { t with program } p) ∧
        ∀ text, (compileSource c t p text v).1 = (compile c t p v).1) ∧
    ((∀ roots v, (∃ r ∈ roots, r.same b = true) →
        ∃ e, (build c roots options host v).1 = .error e) →
      ∀ js p v, ∃ e, (compile c (afterAll c s' js) p v).1 = .error e) := by
  intro s s'
  obtain ⟨stale, program, roots, known⟩ := after_failure c s asked failed
  have hs' : Consistent options host s' := (Consistent.of_calls started ks).call c k
  have hb : ∃ r ∈ s'.roots, r.same b = true := (hs'.known_iff b).mp known
  refine ⟨⟨roots, hb, emit_congr c program⟩,
    fun js hjs => compile_of_not_installsAmong c hs' stale hjs, ?_⟩
  intro unbuildable js p v
  have hjs := not_installsAmong_of_unbuildable c unbuildable hs' hb js
  obtain ⟨r, hr, hrb⟩ := hb
  have hroots : s'.roots <+: ((afterAll c s' js).addRoot p).roots :=
    (roots_prefix_afterAll c js).trans (roots_prefix_addRoot p)
  obtain ⟨e, he⟩ := unbuildable ((afterAll c s' js).addRoot p).roots v ⟨r, hroots.subset hr, hrb⟩
  refine ⟨e, ?_⟩
  rw [(compile_of_not_installsAmong c hs' stale hjs p v).1, he]
  rfl

namespace Trial

theorem unbuildable (roots : List Path) (w : World Nat)
    (h : ∃ r ∈ roots, r.same "/app/b.ts" = true) :
    ∃ e, (build compiler roots .standard host w).1 = .error e := by
  have hany : (["/app/b.ts"] : List Path).any
      (Scripted.Program.holds ⟨roots, ["/app/b.ts"], false⟩) = true := by
    simpa [Scripted.Program.holds] using h
  refine ⟨.transformFailure "analysis" "broken root", ?_⟩
  show (match Scripted.Script.analyze ⟨roots, ["/app/b.ts"], false⟩ with
    | r => (r, { w with state := w.state + 1 })).1 = _
  simp only [Scripted.Script.analyze, hany, Bool.false_or, if_true]

/-- A file that was compiled is asked for again after another one failed. -/
def afterFirst : Session Scripted.Program := (compile compiler session "/app/a.ts" world).2.1

def afterBroken : Session Scripted.Program := (compile compiler afterFirst "/app/b.ts" world).2.1

def brokenRoot : BuildError := .transformFailure "analysis" "broken root"

end Trial

theorem compile_after_failure_trial :
    (∀ p, emit Trial.compiler Trial.afterBroken p = emit Trial.compiler Trial.afterFirst p) ∧
    ∀ js p v, ∃ e,
      (compile Trial.compiler (afterAll Trial.compiler Trial.afterBroken js) p v).1 = .error e := by
  obtain ⟨⟨-, -, kept⟩, -, lost⟩ := compile_after_failure Trial.compiler Trial.started
    [⟨.ensure "/app/a.ts", Trial.world⟩] (k := ⟨.ensure "/app/b.ts", Trial.world⟩) rfl
    (e := Trial.brokenRoot) rfl
  exact ⟨kept, lost Trial.unbuildable⟩

/-- The failure of one file is that of another which was compiled before, and of a third one that
could be compiled beside the first. -/
theorem failure_reaches_other_files :
    (compile Trial.compiler Trial.session "/app/a.ts" Trial.world).1.isOk = true ∧
    (compile Trial.compiler Trial.afterFirst "/app/b.ts" Trial.world).1 = .error Trial.brokenRoot ∧
    (compile Trial.compiler Trial.afterBroken "/app/a.ts" Trial.world).1 =
      .error Trial.brokenRoot ∧
    (compile Trial.compiler Trial.afterBroken "/app/c.ts" Trial.world).1 =
      .error Trial.brokenRoot ∧
    (build Trial.compiler ["/app/a.ts", "/app/c.ts"] .standard Trial.host Trial.world).1.isOk =
      true := by
  decide +kernel

end LiveLoader.Session
