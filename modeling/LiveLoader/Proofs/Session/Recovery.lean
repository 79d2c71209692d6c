import LiveLoader.Proofs.Session.Failure

/-!
# Recovery of a session

A call that fails keeps the program, and so all that is emitted, but its path stays a root. From
then on each call for a path asks the compiler for a program over all roots, until one can be made.
-/

namespace LiveLoader.Session

section

variable (c : Compiler σ Program) {s : Session Program}

/-- In a stale session a call for a path does what the compiler makes of all roots and the path. -/
theorem serve_of_stale {k : Call σ} {path : Path} (asked : k.root? = some path)
    (h : s.stale = true) :
    (∃ e w', build c (s.addRoot path).roots s.options s.host k.world = (.error e, w') ∧
      serve c s k =
        (.ensured (.error e), { (noted c s k).addRoot path with stale := true }, w')) ∨
    (∃ program w', build c (s.addRoot path).roots s.options s.host k.world = (.ok program, w') ∧
      ∃ entry, serve c s k =
        (.ensured (.ok true), ((noted c s k).addRoot path).install program, w'.write [entry])) := by
  have hn := noted_stale c s k h
  have hb : build c ((noted c s k).addRoot path).roots (noted c s k).options (noted c s k).host
      k.world = build c (s.addRoot path).roots s.options s.host k.world := by
    rw [noted_addRoot_roots, noted_options, noted_host]
  rw [serve_of_root? c s asked, ensure_of_stale c _ path hn, ← hb]
  rcases renew_cases c (noted c s k) path k.world with
    ⟨e, w', built, hr⟩ | ⟨program, w', built, hr⟩
  · exact .inl ⟨e, w', built, by rw [hr]⟩
  · exact .inr ⟨program, w', built, _, by rw [hr]⟩

/-- The compiler was asked for a program over these roots: the answer and the world are those that it
left, but for what was written to the log. -/
def Attempts (s : Session Program) (k : Call σ) (roots : List Path) : Prop :=
  let made := build c roots s.options s.host k.world
  reply c s k = .ensured (made.1.map fun _ => true) ∧ ∃ es, (serve c s k).2.2 = made.2.write es

theorem attempts_of_stale {k : Call σ} {path : Path} (asked : k.root? = some path)
    (h : s.stale = true) : Attempts c s k (s.addRoot path).roots := by
  refine ⟨reply_of_stale c s asked h, ?_⟩
  rcases serve_of_stale c asked h with ⟨e, w', built, hs⟩ | ⟨program, w', built, entry, hs⟩
  · exact ⟨[], by rw [hs, built, World.write_nil]⟩
  · exact ⟨[entry], by rw [hs, built]⟩

/-- A call that succeeds in a stale session puts in place what the compiler made over all roots. -/
theorem made_of_stale {k : Call σ} {path : Path} (asked : k.root? = some path)
    (h : s.stale = true) (installs : Installs c s k) :
    let t := after c s k
    Makes c k.world t.roots s.options s.host t.program ∧ t.roots = (s.addRoot path).roots ∧
      t.stale = false ∧ t.rebuilds = s.rebuilds + 1 := by
  rcases serve_of_stale c asked h with ⟨e, w', built, hs⟩ | ⟨program, w', built, entry, hs⟩
  · simp [Installs, reply, hs] at installs
  · have hroots : ((noted c s k).addRoot path).roots = (s.addRoot path).roots :=
      noted_addRoot_roots c k path
    have ht : after c s k = ((noted c s k).addRoot path).install program := by rw [after, hs]
    rw [ht]
    refine ⟨⟨w', ?_⟩, hroots, rfl, by simp [install]⟩
    simp only [install, hroots, built]

end

/-- After a call that failed, and after any calls since that put no program in place either: program
and counters are as they were before, and with them all that is emitted, and the path of the failed
call is a root. The next call for any path asks the compiler for a program over all roots; if one can
be made, it is put in place, made over every path that was asked for so far, in that order. -/
theorem kept_until_made_anew (c : Compiler σ Program) {options : CompilerOptions}
    {host : ResourceHost} {w w' : World σ} {s₀ : Session Program}
    (started : start c options host w = (.ok s₀, w')) (ks : List (Call σ)) {k : Call σ}
    {path : Path} (requested : k.root? = some path) {e : BuildError}
    (failed : reply c (afterAll c s₀ ks) k = .ensured (.error e)) :
    let s := afterAll c s₀ ks
    ∀ js, ¬ InstallsAmong c (after c s k) js →
      let t := afterAll c s (k :: js)
      (t.program = s.program ∧ t.version = s.version ∧ t.rebuilds = s.rebuilds ∧
        ∀ p, emit c t p = emit c s p) ∧
      (∃ r ∈ t.roots, r.same path = true) ∧
      ∀ m q, m.root? = some q →
        Attempts c t m (t.addRoot q).roots ∧
        (Installs c t m →
          let u := after c t m
          let calls := ks ++ k :: js ++ [m]
          Makes c m.world u.roots options host u.program ∧
          u.roots = asked calls ∧
          (∀ j ∈ calls, ∀ p, j.root? = some p → ∃ r ∈ u.roots, r.same p = true) ∧
          u.version = s.version + 1 ∧ u.rebuilds = s.rebuilds + 1 ∧ u.stale = false) := by
  intro s js hjs t
  obtain ⟨stale, program, -, -⟩ := after_failure c s requested failed
  have consistent (ls : List (Call σ)) : Consistent options host (afterAll c s₀ ls) :=
    Consistent.of_calls started ls
  have ht : t = afterAll c s₀ (ks ++ k :: js) := (afterAll_append c s₀ ks (k :: js)).symm
  have tstale : t.stale = true := stale_of_not_installsAmong c (after c s k) hjs stale
  have hno : ¬ InstallsAmong c s (k :: js) := by
    refine not_or.mpr ⟨fun hi => ?_, hjs⟩
    simp [Installs, s, failed] at hi
  have hprogram : t.program = s.program := (program_of_not_installsAmong c s _ hno).1
  have hrebuilds : t.rebuilds = s.rebuilds := rebuilds_of_not_installsAmong c s _ hno
  have hversion : t.version = s.version := by
    rw [ht, (consistent _).counted, ← ht, hrebuilds]
    exact (consistent ks).counted.symm
  refine ⟨⟨hprogram, hversion, hrebuilds, emit_congr c hprogram⟩, ?_, ?_⟩
  · have known : t.knows path = true := known_of_calls c (consistent ks) List.mem_cons_self requested
    rw [ht] at known ⊢
    exact ((consistent _).known_iff path).mp known
  · intro m q asked_q
    refine ⟨attempts_of_stale c asked_q tstale, fun installs => ?_⟩
    obtain ⟨made, -, fresh, counted⟩ := made_of_stale c asked_q tstale installs
    have hu : after c t m = afterAll c s₀ (ks ++ k :: js ++ [m]) := by
      rw [afterAll_concat, ← ht]
    rw [hrebuilds] at counted
    have hc := consistent (ks ++ k :: js ++ [m])
    rw [← hu] at hc
    have hct := consistent (ks ++ k :: js)
    rw [← ht] at hct
    rw [hct.options_eq, hct.host_eq] at made
    refine ⟨made, ?_, ?_, ?_, counted, fresh⟩
    · rw [hu]
      exact roots_of_calls c started _
    · intro j hj p asked_p
      refine (hc.known_iff p).mp ?_
      rw [hu]
      exact known_of_calls c (Consistent.of_start started) hj asked_p
    · rw [hc.counted, counted]
      exact congrArg (· + 1) (consistent ks).counted.symm

namespace Trial

/-- Once it made ten programs, the compiler can analyze those with `/app/b.ts` too. -/
def late : Compiler Nat Scripted.Program :=
  { Scripted.Script.compiler {} with
    analyze := fun p w =>
      (if p.holds "/app/b.ts" && w.state < 10 then .error brokenRoot else .ok p, w) }

def lateSession : Session Scripted.Program :=
  { options := .standard, host, program := ⟨[], [], false⟩ }

theorem lateStarted :
    start late .standard host world = (.ok lateSession, { world with state := 1 }) := rfl

def compiled : Session Scripted.Program :=
  afterAll late lateSession [⟨.ensure "/app/a.ts", world⟩]

/-- Two files fail one after the other. -/
def failed : Session Scripted.Program :=
  afterAll late compiled
    [⟨.ensure "/app/b.ts", world⟩, ⟨.ensureCurrent "/app/c.ts" "x".toList, world⟩]

/-- The first file is asked for again when it is possible to go on. -/
def retry : Call Nat := ⟨.ensure "/app/a.ts", { world with state := 10 }⟩

end Trial

theorem kept_until_made_anew_trial :
    (∀ p, emit Trial.late Trial.failed p = emit Trial.late Trial.compiled p) ∧
    let t := after Trial.late Trial.failed Trial.retry
    Makes Trial.late Trial.retry.world t.roots .standard Trial.host t.program ∧
      t.roots = (["/app/a.ts", "/app/b.ts", "/app/c.ts"] : List Path) ∧ t.version = 2 := by
  obtain ⟨⟨-, -, -, kept⟩, -, next⟩ := kept_until_made_anew Trial.late Trial.lateStarted
    [⟨.ensure "/app/a.ts", Trial.world⟩] (k := ⟨.ensure "/app/b.ts", Trial.world⟩) rfl
    (e := Trial.brokenRoot) rfl [⟨.ensureCurrent "/app/c.ts" "x".toList, Trial.world⟩] (by
      intro h
      cases h with
      | inl installs => cases installs
      | inr none => exact none)
  obtain ⟨-, recovered⟩ := next Trial.retry "/app/a.ts" rfl
  obtain ⟨made, roots, -, version, -⟩ := recovered rfl
  exact ⟨kept, made, roots.trans (by decide), version⟩

end LiveLoader.Session
