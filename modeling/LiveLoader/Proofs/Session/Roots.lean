import LiveLoader.Proofs.Session.Calls

/-!
# Roots and programs of a session

The main statement is `roots_and_program_of_calls`: whatever a session was asked for, with whatever
success, its roots are the paths asked for in the order of the first request, its counters count the
programs put in place, and its program was made from the roots of the call that put it there, which
are all roots as long as the session is not stale.
-/

namespace LiveLoader.Session

/-- The paths that calls asked for, each as it was written the first time. -/
def asked (ks : List (Call σ)) : List Path := (ks.filterMap Call.root?).eraseDupsBy Path.same

/-- The calls after `js` left the program alone that the last of `js` put in place, or that the
session started with. -/
structure Origin (c : Compiler σ Program) (s : Session Program) (js ks : List (Call σ)) : Prop where
  placed : js = [] ∨ ∃ is i, js = is ++ [i] ∧ Installs c (afterAll c s is) i
  kept : ¬ InstallsAmong c (afterAll c s js) ks

/-- The world in which the program was made that is in place after `js`: the one of the start, or one
of the last call, which put it there. -/
def Birth (c : Compiler σ Program) (start : World σ) (s : Session Program) (js : List (Call σ))
    (w : World σ) : Prop :=
  (js = [] ∧ w = start) ∨ ∃ is i, js = is ++ [i] ∧ Installs c (afterAll c s is) i ∧
    BuildsIn c (afterAll c s is) i w

/-- What holds of roots and counters between calls. -/
structure Consistent (options : CompilerOptions) (host : ResourceHost) (s : Session Program) :
    Prop where
  options_eq : s.options = options
  host_eq : s.host = host
  distinct : s.roots.Pairwise fun p q => p.same q = false
  known_iff : ∀ p, s.knows p = true ↔ ∃ r ∈ s.roots, r.same p = true
  counted : s.version = s.rebuilds

section

variable {options : CompilerOptions} {host : ResourceHost} {s : Session Program}

theorem Consistent.addRoot (h : Consistent options host s) (p : Path) :
    Consistent options host (s.addRoot p) where
  options_eq := by rw [addRoot_options, h.options_eq]
  host_eq := by rw [addRoot_host, h.host_eq]
  distinct := by
    rw [addRoot_roots]
    split
    case isTrue => exact h.distinct
    case isFalse hp =>
      rw [List.pairwise_append]
      refine ⟨h.distinct, List.pairwise_singleton _ _, ?_⟩
      intro r hr q hq
      rw [List.mem_singleton.mp hq, Bool.eq_false_iff]
      intro hs
      exact hp ((h.known_iff p).mpr ⟨r, hr, hs⟩)
  known_iff := by
    intro q
    rw [knows_addRoot, addRoot_roots]
    split
    case isTrue hp =>
      rw [Bool.or_eq_true, ← h.known_iff q]
      refine ⟨fun hq => ?_, .inl⟩
      rcases hq with hq | hq
      · exact hq
      · rwa [← knows_congr hq]
    case isFalse hp =>
      rw [Bool.or_eq_true, h.known_iff q]
      simp only [List.mem_append, List.mem_singleton, or_and_right, exists_or, exists_eq_left]
  counted := by rw [addRoot_version, addRoot_rebuilds, h.counted]

variable (c : Compiler σ Program)

theorem Consistent.note (h : Consistent options host s) (k : Call σ) :
    Consistent options host (noted c s k) := by
  rw [noted_eq]
  exact { h with }

theorem Consistent.call (h : Consistent options host s) (k : Call σ) :
    Consistent options host (after c s k) := by
  have hs := step_after c s k
  generalize reply c s k = r, after c s k = t at hs
  cases hs with
  | emit => exact h
  | keep => exact h.note c k
  | fail path => exact { (h.note c k).addRoot path with }
  | install path asked program =>
    have hn := (h.note c k).addRoot path
    exact { hn with counted := congrArg (· + 1) hn.counted }

variable {c}

/-- A session starts without roots and with a program for none. -/
theorem start_eq {w w' : World σ} (h : start c options host w = (.ok s, w')) :
    ∃ program, s = { options, host, program } ∧ Makes c w [] options host program := by
  unfold start at h
  split at h
  case h_1 => simp at h
  case h_2 program v hb =>
    simp only [Prod.mk.injEq, Except.ok.injEq] at h
    exact ⟨program, h.1.symm, v, hb⟩

theorem Consistent.of_start {w w' : World σ} (h : start c options host w = (.ok s, w')) :
    Consistent options host s := by
  obtain ⟨program, rfl, -⟩ := start_eq h
  exact ⟨rfl, rfl, List.Pairwise.nil, by simp [knows], rfl⟩

theorem Consistent.of_calls {w w' : World σ} (h : start c options host w = (.ok s, w'))
    (ks : List (Call σ)) : Consistent options host (afterAll c s ks) :=
  afterAll_induction c (Consistent.of_start h) (fun _ k h => h.call c k) ks

end

section

variable (c : Compiler σ Program) {s : Session Program}

theorem roots_after (k : Call σ) : (after c s k).roots =
    match k.root? with
    | some path => (s.addRoot path).roots
    | none => s.roots := by
  have hs := step_after c s k
  generalize reply c s k = r, after c s k = t at hs
  cases hs with
  | emit path asked => simp [Call.root?, asked]
  | keep path asked known => simp [asked, addRoot_roots, known]
  | fail path asked => simp [asked, noted_addRoot_roots]
  | install path asked => simp [asked, install, noted_addRoot_roots]

/-- After a call the place that it asked for is known, and no other became so. -/
theorem knows_after_eq (k : Call σ) (q : Path) :
    (after c s k).knows q = (s.knows q || k.root?.any (·.same q)) := by
  have hs := step_after c s k
  generalize reply c s k = r, after c s k = t at hs
  cases hs with
  | emit path asked => simp [Call.root?, asked]
  | keep path asked known =>
    rw [noted_knows, asked, Option.any_some]
    by_cases hq : path.same q = true
    · rw [← knows_congr hq, known, Bool.true_or]
    · rw [Bool.eq_false_iff.mpr hq, Bool.or_false]
  | fail path asked | install path asked =>
    have hadd := knows_addRoot (s := noted c s k) path q
    rw [noted_knows] at hadd
    rw [asked, Option.any_some]
    exact hadd

theorem knows_after {k : Call σ} {path : Path} (asked : k.root? = some path) :
    (after c s k).knows path = true := by
  simp [knows_after_eq, asked]

/-- Each root was asked for. -/
theorem root_of_calls {ks : List (Call σ)} {r : Path} (h : r ∈ (afterAll c s ks).roots) :
    r ∈ s.roots ∨ ∃ k ∈ ks, k.root? = some r := by
  induction ks generalizing s with
  | nil => exact .inl h
  | cons k ks ih =>
    rcases ih h with h | ⟨j, hj, hr⟩
    · rw [roots_after] at h
      split at h
      case h_1 path asked =>
        rw [addRoot_roots] at h
        split at h
        · exact .inl h
        · rcases List.mem_append.mp h with h | h
          · exact .inl h
          · rw [List.mem_singleton.mp h]
            exact .inr ⟨k, List.mem_cons_self, asked⟩
      case h_2 => exact .inl h
    · exact .inr ⟨j, List.mem_cons_of_mem k hj, hr⟩

theorem roots_prefix_after (k : Call σ) : s.roots <+: (after c s k).roots := by
  rw [roots_after]
  split
  · exact roots_prefix_addRoot _
  · exact List.prefix_rfl

theorem roots_prefix_afterAll (ks : List (Call σ)) : s.roots <+: (afterAll c s ks).roots := by
  induction ks generalizing s with
  | nil => exact List.prefix_rfl
  | cons k ks ih => exact (roots_prefix_after c k).trans ih

/-- Each place that was asked for is a root, whatever came of the call. -/
theorem known_of_calls {options : CompilerOptions} {host : ResourceHost}
    (h : Consistent options host s) {ks : List (Call σ)} {k : Call σ} (hk : k ∈ ks) {path : Path}
    (asked : k.root? = some path) : (afterAll c s ks).knows path = true := by
  obtain ⟨js, is, rfl⟩ := List.append_of_mem hk
  have consistent (ls : List (Call σ)) : Consistent options host (afterAll c s ls) :=
    afterAll_induction c h (fun _ k h => h.call c k) ls
  have known : (afterAll c s (js ++ [k])).knows path = true := by
    rw [afterAll_concat]
    exact knows_after c asked
  obtain ⟨r, hr, same⟩ := ((consistent _).known_iff path).mp known
  refine ((consistent _).known_iff path).mpr ⟨r, ?_, same⟩
  rw [List.append_cons, afterAll_append]
  exact (roots_prefix_afterAll c is).subset hr

/-- What calls add to the roots: places that were not known, no two of them the same, which calls asked
for. -/
theorem exists_new_roots {options : CompilerOptions} {host : ResourceHost}
    (h : Consistent options host s) (ks : List (Call σ)) :
    ∃ new, (afterAll c s ks).roots = s.roots ++ new ∧
      new.Pairwise (fun p q => p.same q = false) ∧
      ∀ r ∈ new, s.knows r = false ∧ ∃ k ∈ ks, k.root? = some r := by
  have hc : Consistent options host (afterAll c s ks) :=
    afterAll_induction c h (fun _ k h => h.call c k) ks
  obtain ⟨new, hnew⟩ := roots_prefix_afterAll (s := s) c ks
  have distinct := hc.distinct
  rw [← hnew, List.pairwise_append] at distinct
  obtain ⟨-, hdistinct, hold⟩ := distinct
  refine ⟨new, hnew.symm, hdistinct, fun r hr => ⟨?_, ?_⟩⟩
  · rw [Bool.eq_false_iff]
    intro known
    obtain ⟨r', hr', same⟩ := (h.known_iff r).mp known
    simp [hold r' hr' r hr] at same
  · have hroot : r ∈ (afterAll c s ks).roots := by
      rw [← hnew]
      exact List.mem_append_right _ hr
    refine (root_of_calls c hroot).resolve_left fun hr' => ?_
    have hself := hold r hr' r hr
    simp [Path.same_self] at hself

/-- The roots grow as `List.eraseDupsBy` gathers its result: what it holds, in reverse, are the
roots so far. -/
theorem roots_afterAll {options : CompilerOptions} {host : ResourceHost}
    (h : Consistent options host s) (ks : List (Call σ)) : (afterAll c s ks).roots =
      List.eraseDupsBy.loop Path.same (ks.filterMap Call.root?) s.roots.reverse := by
  induction ks generalizing s with
  | nil => simp [List.eraseDupsBy.loop]
  | cons k ks ih =>
    rw [afterAll_cons, ih (h.call c k), roots_after]
    cases hk : k.root? with
    | none => simp [hk]
    | some path =>
      have hknown : s.roots.reverse.any (path.same ·) = s.knows path := by
        rw [Bool.eq_iff_iff, h.known_iff, List.any_eq_true]
        simp only [List.mem_reverse, Path.same_comm path]
      simp only [List.filterMap_cons, hk, List.eraseDupsBy.loop, hknown, addRoot_roots]
      cases s.knows path with
      | true => rfl
      | false => simp

theorem roots_of_calls {options : CompilerOptions} {host : ResourceHost} {w w' : World σ}
    (started : start c options host w = (.ok s, w')) (ks : List (Call σ)) :
    (afterAll c s ks).roots = asked ks := by
  obtain ⟨program, rfl, -⟩ := start_eq started
  exact roots_afterAll c (Consistent.of_start started) ks

end

section

variable (c : Compiler σ Program) (s : Session Program)

/-- A call puts a program in place that was made from all roots, and counts it, or leaves program
and counters as they are. -/
theorem program_after (k : Call σ) :
    (Installs c s k ∧
      (∃ w, BuildsIn c s k w ∧
        Makes c w (after c s k).roots s.options s.host (after c s k).program) ∧
      (after c s k).version = s.version + 1 ∧ (after c s k).rebuilds = s.rebuilds + 1) ∨
    (¬ Installs c s k ∧ (after c s k).program = s.program ∧
      (after c s k).version = s.version ∧ (after c s k).rebuilds = s.rebuilds ∧
      ((after c s k).stale = false → s.stale = false ∧ (after c s k).roots = s.roots)) := by
  unfold Installs
  have hs := step_after c s k
  generalize reply c s k = r, after c s k = t at hs
  cases hs with
  | emit => exact .inr ⟨nofun, rfl, rfl, rfl, fun h => ⟨h, rfl⟩⟩
  | keep path asked known fresh =>
    refine .inr ⟨by simp, noted_program c k, noted_version c k, noted_rebuilds c k, fun h => ?_⟩
    refine ⟨Bool.eq_false_iff.mpr fun hs => ?_, noted_roots c k⟩
    rw [noted_stale c s k hs] at h
    cases h
  | fail path => exact .inr ⟨by simp, by simp, by simp, by simp, nofun⟩
  | install path asked program w place made =>
    exact .inl ⟨rfl, ⟨w, place, made⟩, by simp [install], by simp [install]⟩

theorem made_of_installs {k : Call σ} (h : Installs c s k) : ∃ w, BuildsIn c s k w ∧
    Makes c w (after c s k).roots s.options s.host (after c s k).program :=
  ((program_after c s k).resolve_right fun hno => hno.1 h).2.1

/-- As long as no program is put in place and the session is not stale, nothing was asked for that
it did not know. -/
theorem program_of_not_installsAmong (ks : List (Call σ)) (h : ¬ InstallsAmong c s ks) :
    (afterAll c s ks).program = s.program ∧
      ((afterAll c s ks).stale = false → s.stale = false ∧ (afterAll c s ks).roots = s.roots) := by
  induction ks generalizing s with
  | nil => exact ⟨rfl, fun h => ⟨h, rfl⟩⟩
  | cons k ks ih =>
    simp only [InstallsAmong, not_or] at h
    obtain ⟨-, hp, -, -, hk⟩ := (program_after c s k).resolve_left fun hi => h.1 hi.1
    obtain ⟨hprogram, hroots⟩ := ih (after c s k) h.2
    refine ⟨hprogram.trans hp, fun hfresh => ?_⟩
    obtain ⟨hafter, heq⟩ := hroots hfresh
    exact ⟨(hk hafter).1, heq.trans (hk hafter).2⟩

theorem rebuilds_of_not_installsAmong (ks : List (Call σ)) (h : ¬ InstallsAmong c s ks) :
    (afterAll c s ks).rebuilds = s.rebuilds := by
  induction ks generalizing s with
  | nil => rfl
  | cons k ks ih =>
    simp only [InstallsAmong, not_or] at h
    obtain ⟨-, -, -, hr, -⟩ := (program_after c s k).resolve_left fun hi => h.1 hi.1
    exact (ih (after c s k) h.2).trans hr

theorem rebuilds_le_afterAll (ks : List (Call σ)) :
    s.rebuilds ≤ (afterAll c s ks).rebuilds := by
  induction ks generalizing s with
  | nil => exact Nat.le_refl _
  | cons k ks ih =>
    have hks := ih (after c s k)
    rw [afterAll_cons]
    rcases program_after c s k with ⟨-, -, -, hk⟩ | ⟨-, -, -, hk, -⟩
    · omega
    · omega

/-- Programs that are put in place are counted, so the counter tells whether one was. -/
theorem rebuilds_eq_iff (ks : List (Call σ)) :
    (afterAll c s ks).rebuilds = s.rebuilds ↔ ¬ InstallsAmong c s ks := by
  refine ⟨fun h among => ?_, rebuilds_of_not_installsAmong c s ks⟩
  induction ks generalizing s with
  | nil => exact among
  | cons k ks ih =>
    have hks := rebuilds_le_afterAll c (after c s k) ks
    rw [afterAll_cons] at h
    rcases program_after c s k with ⟨-, -, -, hk⟩ | ⟨hno, -, -, hk, -⟩
    · omega
    · exact ih (after c s k) (by omega) (among.resolve_left hno)

theorem stale_of_not_installsAmong {ks : List (Call σ)} (h : ¬ InstallsAmong c s ks)
    (stale : s.stale = true) : (afterAll c s ks).stale = true := by
  cases hs : (afterAll c s ks).stale with
  | true => rfl
  | false =>
    obtain ⟨fresh, -⟩ := (program_of_not_installsAmong c s ks h).2 hs
    simp [stale] at fresh

theorem exists_origin (ks : List (Call σ)) : ∃ js is, ks = js ++ is ∧ Origin c s js is := by
  induction ks generalizing s with
  | nil => exact ⟨[], [], rfl, .inl rfl, id⟩
  | cons k ks ih =>
    obtain ⟨js, is, rfl, placed, kept⟩ := ih (after c s k)
    by_cases hjs : js = []
    · subst hjs
      by_cases hk : Installs c s k
      · exact ⟨[k], is, rfl, .inr ⟨[], k, rfl, hk⟩, kept⟩
      · exact ⟨[], k :: is, rfl, .inl rfl, not_or.mpr ⟨hk, kept⟩⟩
    · obtain ⟨hs, i, rfl, hi⟩ := placed.resolve_left hjs
      exact ⟨k :: (hs ++ [i]), is, rfl, .inr ⟨k :: hs, i, rfl, hi⟩, kept⟩

end

/-- The program of a session that is up to date and has a root was put in place by a call. -/
theorem exists_installs {c : Compiler σ Program} {options : CompilerOptions} {host : ResourceHost}
    {w w' : World σ} {s₀ : Session Program} (started : start c options host w = (.ok s₀, w'))
    {ks : List (Call σ)} {path : Path} (fresh : (afterAll c s₀ ks).stale = false)
    (known : (afterAll c s₀ ks).knows path = true) :
    ∃ hs k is, ks = hs ++ k :: is ∧ Installs c (afterAll c s₀ hs) k ∧
      ¬ InstallsAmong c (afterAll c s₀ (hs ++ [k])) is := by
  obtain ⟨js, is, rfl, placed, kept⟩ := exists_origin c s₀ ks
  rcases placed with rfl | ⟨hs, k, rfl, installed⟩
  · -- since the start nothing was asked for that the session did not know
    obtain ⟨program, rfl, -⟩ := start_eq started
    obtain ⟨r, hr, -⟩ := ((Consistent.of_calls started _).known_iff path).mp known
    have hroots := ((program_of_not_installsAmong c _ is kept).2 fresh).2
    rw [afterAll_nil] at hroots
    rw [List.nil_append, hroots] at hr
    simp at hr
  · exact ⟨hs, k, is, by simp, installed, kept⟩

/-- The program in place was made by the call that put it there, or at the start, from the roots that
the session had by then. -/
theorem makes_of_origin (c : Compiler σ Program) {options : CompilerOptions} {host : ResourceHost}
    {w w' : World σ} {s : Session Program} (started : start c options host w = (.ok s, w'))
    {js is : List (Call σ)} (h : Origin c s js is) : ∃ v, Birth c w s js v ∧
      Makes c v (afterAll c s js).roots options host (afterAll c s (js ++ is)).program := by
  rw [afterAll_append, (program_of_not_installsAmong c _ is h.kept).1]
  rcases h.placed with rfl | ⟨hs, i, rfl, hi⟩
  · obtain ⟨program, rfl, made⟩ := start_eq started
    exact ⟨w, .inl ⟨rfl, rfl⟩, made⟩
  · have hc := Consistent.of_calls started hs
    obtain ⟨v, place, made⟩ := made_of_installs c (afterAll c s hs) hi
    rw [hc.options_eq, hc.host_eq] at made
    rw [afterAll_concat]
    exact ⟨v, .inr ⟨hs, i, rfl, hi, place⟩, made⟩

/-- After any calls on a started session: no two roots are the same place and the known paths are
just the roots; earlier roots stand first, and all stand in the order in which they were asked for;
the two counters agree, and a call raises both by one if it puts a program in place and neither if
not; the program was made from a prefix of the roots, and from all of them unless the session is
stale. -/
theorem roots_and_program_of_calls (c : Compiler σ Program) {options : CompilerOptions}
    {host : ResourceHost} {w w' : World σ} {s₀ : Session Program}
    (started : start c options host w = (.ok s₀, w')) (ks : List (Call σ)) :
    let s := afterAll c s₀ ks
    (s.roots.Pairwise (fun p q => p.same q = false) ∧
      ∀ p, s.knows p = true ↔ ∃ r ∈ s.roots, r.same p = true) ∧
    ((∀ js, js <+: ks → (afterAll c s₀ js).roots <+: s.roots) ∧ s.roots = asked ks) ∧
    (s.version = s.rebuilds ∧ ∀ k,
      (Installs c s k ∧ (∃ v, BuildsIn c s k v ∧
          Makes c v (after c s k).roots options host (after c s k).program) ∧
        (after c s k).version = s.version + 1 ∧ (after c s k).rebuilds = s.rebuilds + 1) ∨
      (¬ Installs c s k ∧ (after c s k).program = s.program ∧
        (after c s k).version = s.version ∧ (after c s k).rebuilds = s.rebuilds)) ∧
    ∃ js is, ks = js ++ is ∧ Origin c s₀ js is ∧
      (∃ v, Birth c w s₀ js v ∧ Makes c v (afterAll c s₀ js).roots options host s.program) ∧
      (afterAll c s₀ js).roots <+: s.roots ∧
      (s.stale = false → (afterAll c s₀ js).roots = s.roots) := by
  intro s
  have hc : Consistent options host s := Consistent.of_calls started ks
  refine ⟨⟨hc.distinct, hc.known_iff⟩, ⟨?_, ?_⟩, ⟨hc.counted, ?_⟩, ?_⟩
  · rintro js ⟨is, rfl⟩
    simp only [s, afterAll_append]
    exact roots_prefix_afterAll c is
  · obtain ⟨program, rfl, -⟩ := start_eq started
    exact roots_afterAll c (Consistent.of_start started) ks
  · intro k
    have hk := program_after c s k
    rw [hc.options_eq, hc.host_eq] at hk
    exact hk.imp_right fun ⟨hi, hp, hv, hr, _⟩ => ⟨hi, hp, hv, hr⟩
  · obtain ⟨js, is, rfl, ho⟩ := exists_origin c s₀ ks
    refine ⟨js, is, rfl, ho, makes_of_origin c started ho, ?_, ?_⟩
    · simp only [s, afterAll_append]
      exact roots_prefix_afterAll c is
    · intro hfresh
      simp only [s, afterAll_append] at hfresh ⊢
      exact ((program_of_not_installsAmong c _ is ho.kept).2 hfresh).2.symm

/-- Two places are asked for in three calls; with the second one no program can be made. -/
def Trial.failingCalls : List (Call Nat) :=
  [⟨.ensure "/app/a.ts", Trial.world⟩, ⟨.ensure "/app/b.ts", Trial.world⟩,
    ⟨.ensureCurrent "/app/./a.ts" "x".toList, Trial.world⟩]

theorem roots_and_program_of_failingCalls :
    let s := afterAll Trial.compiler Trial.session Trial.failingCalls
    (∀ p, s.knows p = true ↔ ∃ r ∈ s.roots, r.same p = true) ∧
    s.roots = (["/app/a.ts", "/app/b.ts"] : List Path) ∧ s.version = s.rebuilds ∧
    ∃ js is, Trial.failingCalls = js ++ is ∧ Origin Trial.compiler Trial.session js is ∧
      ∃ v, Birth Trial.compiler Trial.world Trial.session js v ∧
        Makes Trial.compiler v (afterAll Trial.compiler Trial.session js).roots .standard
          Trial.host s.program := by
  obtain ⟨⟨-, known⟩, ⟨-, roots⟩, ⟨counted, -⟩, js, is, calls, origin, made, -⟩ :=
    roots_and_program_of_calls Trial.compiler Trial.started Trial.failingCalls
  exact ⟨known, roots.trans (by decide), counted, js, is, calls, origin, made⟩

end LiveLoader.Session
