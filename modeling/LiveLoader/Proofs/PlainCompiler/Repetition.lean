import LiveLoader.Proofs.PlainCompiler.Sessions

/-!
# Asking again

When a path was ensured and the files stay as they are, a known path needs nothing any more, unless a
resource file is there that cannot be read, such as a directory or bytes that are no text. The
analysis finds such a file missing and the check for changed inputs finds it present, so each further
call makes the same program anew.
-/

namespace LiveLoader

/-- The session after the same program was put in place `n` more times. -/
def Session.advance (s : Session Program) (n : Nat) : Session Program :=
  { s with version := s.version + n, rebuilds := s.rebuilds + n }

@[simp] theorem Session.advance_zero (s : Session Program) : s.advance 0 = s := rfl

theorem Session.advance_advance (s : Session Program) (m n : Nat) :
    (s.advance m).advance n = s.advance (m + n) := by
  simp [advance, Nat.add_assoc]

namespace PlainCompiler

open Resource
open Session (Call after afterAll)

/-- The file that a source misses is there. -/
def Source.obstructed (fs : FileSystem) (s : Source) : Bool :=
  match s.resources with
  | .missing file => fs.holds file
  | _ => false

def Program.obstructed (fs : FileSystem) (p : Program) : Bool := p.sources.any (·.obstructed fs)

section

variable {digest : List Char → String} {host : ResourceHost} {fs : FileSystem}

variable (digest host fs) in
/-- What is found out about resources tells which files were read, or one that cannot be. -/
theorem found_cases (path : Path) (ps : List MetadataProperty) :
    found digest host fs path ps = .none ∨
    (∃ parts, found digest host fs path ps = .inlined parts ∧ Recorded digest fs parts.files) ∨
    ∃ file, found digest host fs path ps = .missing file ∧ ∃ f, fs.readText file = .error f := by
  unfold found
  by_cases hps : ps.isEmpty = true
  · exact .inl (if_pos hps)
  · rw [if_neg hps]
    cases h : Build.result (inlineAll digest host fs path ps) with
    | ok parts => exact .inr (.inl ⟨parts, rfl, (inlineAll_frame fs h).1⟩)
    | error e =>
      obtain ⟨file, rfl, unreadable⟩ := inlineAll_eq_error h
      exact .inr (.inr ⟨file, rfl, unreadable⟩)

/-- On the files that were analyzed nothing changed, unless a file was missing and is there. -/
theorem changed_analyzed (path : Path) (text : List Char) :
    (analyzed digest host fs path text).changed digest fs =
      (analyzed digest host fs path text).obstructed fs := by
  unfold Source.changed Source.obstructed analyzed
  rcases found_cases digest host fs path
    (properties (Syntax.read (.ofPath path) text).program) with
    h | ⟨parts, h, recorded⟩ | ⟨file, h, -⟩
  · simp only [h]
  · simp only [h]
    refine List.any_eq_false.mpr fun e he => ?_
    obtain ⟨read, hread, hdigest⟩ := recorded e he
    simp [hread, hdigest]
  · simp only [h]

theorem unreadable_of_missing {path file : Path} {text : List Char}
    (h : (analyzed digest host fs path text).resources = .missing file) :
    ∃ f, fs.readText file = .error f := by
  unfold analyzed at h
  rcases found_cases digest host fs path
    (properties (Syntax.read (.ofPath path) text).program) with
    hf | ⟨parts, hf, -⟩ | ⟨file', hf, unreadable⟩
  · simp [hf] at h
  · simp [hf] at h
  · simp only [hf, Resources.missing.injEq] at h
    rwa [← h]

theorem inputsChanged_of_sourcesOf {p : Program} {roots : List Path}
    (h : p.sources = sourcesOf digest host fs roots) :
    inputsChanged digest p fs = p.obstructed fs := by
  unfold inputsChanged Program.obstructed
  rw [Bool.eq_iff_iff, List.any_eq_true, List.any_eq_true]
  refine exists_congr fun s => and_congr_right fun hs => ?_
  rw [h, mem_sourcesOf] at hs
  obtain ⟨root, -, text, -, rfl⟩ := hs
  rw [changed_analyzed]

/-- A missing file that is there is a changed input. -/
theorem obstructed_of_unchanged {p : Program} (h : inputsChanged digest p fs = false) :
    p.obstructed fs = false := by
  refine List.any_eq_false.mpr fun s hs => ?_
  have hchanged := List.any_eq_false.mp h s hs
  unfold Source.obstructed
  cases hr : s.resources with
  | none | inlined parts => simp
  | missing file => simpa [Source.changed, hr] using hchanged

end

section

variable (digest : List Char → String)

/-- Making the program anew succeeds, with what the files are by then. -/
theorem renew_eq (s : Session Program) (path : Path) (w : World Unit) :
    ∃ es, Session.renew (compilerWith digest) s path w =
      (.ok true, (s.addRoot path).install ⟨(s.addRoot path).roots, s.options, s.host,
        sourcesOf digest s.host w.files (s.addRoot path).roots⟩, w.write es) := by
  obtain ⟨es, hb⟩ := build_eq digest s.host (s.addRoot path).roots s.options w
  rcases Session.renew_cases (compilerWith digest) s path w with
    ⟨e, w', built, -⟩ | ⟨program, w', built, hr⟩
  · rw [hb] at built
    cases built
  · rw [hb] at built
    cases built
    rw [hr, World.write_write]
    exact ⟨_, rfl⟩

/-- What a call for a path leaves: only a file that is missing and there counts as a changed input, and
if one does, the program is the one that would be made anew. -/
structure Settled (fs : FileSystem) (s : Session Program) : Prop where
  fresh : s.stale = false
  changed_eq : inputsChanged digest s.program fs = s.program.obstructed fs
  program_eq : s.program.obstructed fs = true →
    s.program = ⟨s.roots, s.options, s.host, sourcesOf digest s.host fs s.roots⟩
  unreadable : ∀ source ∈ s.program.sources, ∀ file, source.resources = .missing file →
    fs.holds file = true → ∃ f, fs.readText file = .error f

variable {digest}

theorem Settled.advance {fs : FileSystem} {s : Session Program} (h : Settled digest fs s) (n : Nat) :
    Settled digest fs (s.advance n) := { h with }

/-- A call for a path settles the session. -/
theorem settled_after (s : Session Program) {k : Call Unit} {path : Path}
    (asked : k.root? = some path) :
    Settled digest k.world.files (after (compilerWith digest) s k) := by
  let t := Session.noted (compilerWith digest) s k
  rw [Session.after_of_root? (compilerWith digest) s asked]
  rcases Session.ensure_cases (compilerWith digest) t path k.world with
    ⟨-, fresh, unchanged, h⟩ | ⟨v, place, h⟩
  · have unchanged : inputsChanged digest t.program k.world.files = false := unchanged
    have clear : t.program.obstructed k.world.files = false := obstructed_of_unchanged unchanged
    rw [h]
    refine ⟨fresh, unchanged.trans clear.symm, fun obstructed => ?_, ?_⟩
    · rw [clear] at obstructed
      cases obstructed
    · intro source hsource file missing present
      have hno := List.any_eq_false.mp clear source hsource
      simp [Source.obstructed, missing, present] at hno
  · have hv : v = k.world := by
      rcases place with rfl | rfl
      · rfl
      · rfl
    subst hv
    obtain ⟨es, hr⟩ := renew_eq digest t path k.world
    rw [h, hr]
    refine ⟨rfl, inputsChanged_of_sourcesOf rfl, fun _ => ?_, ?_⟩
    · simp [Session.install]
    · intro source hsource file missing _
      obtain ⟨root, -, text, -, rfl⟩ := mem_sourcesOf.mp hsource
      exact unreadable_of_missing missing

/-- A known path that is ensured in a settled session is answered the same each time, and nothing but
the counters changes. -/
theorem serve_of_settled {fs : FileSystem} {s : Session Program} (h : Settled digest fs s)
    {k : Call Unit} {path : Path} (request : k.request = .ensure path)
    (known : s.knows path = true) (files : k.world.files = fs) :
    Session.reply (compilerWith digest) s k = .ensured (.ok (s.program.obstructed fs)) ∧
      after (compilerWith digest) s k =
        s.advance (if s.program.obstructed fs then 1 else 0) := by
  have asked : k.root? = some path := by rw [Call.root?, request]
  have hn : Session.noted (compilerWith digest) s k = s := by rw [Session.noted, request]
  have hc : (compilerWith digest).inputsChanged s.program k.world =
      (s.program.obstructed fs, k.world) := by
    rw [← h.changed_eq, ← files]
    rfl
  rw [Session.reply_of_root? _ s asked, Session.after_of_root? _ s asked, hn,
    Session.ensure_of_fresh _ s path known h.fresh, hc]
  cases hb : s.program.obstructed fs with
  | false => exact ⟨rfl, rfl⟩
  | true =>
    obtain ⟨es, hr⟩ := renew_eq digest s path k.world
    have same : s.install ⟨s.roots, s.options, s.host,
        sourcesOf digest s.host k.world.files s.roots⟩ = s.advance 1 := by
      rw [files, ← h.program_eq hb]
      unfold Session.install Session.advance
      rw [← h.fresh]
    rw [Session.addRoot_of_knows known, same] at hr
    simp only [hr, if_true, and_self]

/-- Any number of such calls raises the counters by as many, or not at all. -/
theorem afterAll_of_settled {fs : FileSystem} {s : Session Program} (h : Settled digest fs s)
    {js : List (Call Unit)} (again : ∀ j ∈ js,
      j.world.files = fs ∧ ∃ q, j.request = .ensure q ∧ s.knows q = true) :
    afterAll (compilerWith digest) s js =
      s.advance (if s.program.obstructed fs then js.length else 0) := by
  induction js generalizing s with
  | nil => simp
  | cons j js ih =>
    obtain ⟨files, q, request, known⟩ := again j List.mem_cons_self
    have hj := (serve_of_settled h request known files).2
    have hjs := ih (h.advance (if s.program.obstructed fs then 1 else 0))
      fun i hi => again i (List.mem_cons_of_mem j hi)
    rw [Session.afterAll_cons, hj, hjs, Session.advance_advance]
    cases hb : s.program.obstructed fs with
    | false => simp [Session.advance, hb]
    | true => simp [Session.advance, hb, Nat.add_comm]

end

/-- Once a path was ensured, with its text or without, and as long as the files stay as they are,
each path that is known can be ensured again any number of times: roots and program stay the same,
and as long as no source misses a resource file that is there, nothing is made and both counters
stay. If some source does, its file is one that cannot be read, and each call puts the same program
in place once more. -/
theorem ensure_again (digest : List Char → String) (s : Session Program) {k : Call Unit} {path : Path}
    (asked : k.root? = some path) :
    let c := compilerWith digest
    let s' := after c s k
    let again := s'.program.obstructed k.world.files
    (∃ b, Session.reply c s k = .ensured (.ok b)) ∧ s'.knows path = true ∧
    (again = true ↔ ∃ source ∈ s'.program.sources, ∃ file, source.resources = .missing file ∧
      k.world.files.holds file = true ∧ ∃ f, k.world.files.readText file = .error f) ∧
    ∀ js : List (Call Unit), (∀ j ∈ js, j.world.files = k.world.files ∧
        ∃ q, j.request = .ensure q ∧ s'.knows q = true) →
      let t := afterAll c s' js
      let n := if again then js.length else 0
      t = { s' with version := s'.version + n, rebuilds := s'.rebuilds + n } ∧
      ∀ q w, t.knows q = true → w.files = k.world.files →
        Session.reply c t ⟨.ensure q, w⟩ = .ensured (.ok again) := by
  intro c s' again
  have settled : Settled digest k.world.files s' := settled_after s asked
  refine ⟨reply_ok digest s asked, Session.knows_after c asked, ?_, ?_⟩
  · constructor
    · intro h
      obtain ⟨source, hsource, obstructed⟩ := List.any_eq_true.mp h
      unfold Source.obstructed at obstructed
      split at obstructed
      case h_1 file missing =>
        exact ⟨source, hsource, file, missing, obstructed,
          settled.unreadable source hsource file missing obstructed⟩
      case h_2 => cases obstructed
    · rintro ⟨source, hsource, file, missing, present, -⟩
      refine List.any_eq_true.mpr ⟨source, hsource, ?_⟩
      simp [Source.obstructed, missing, present]
  · intro js hjs t n
    have ht : t = s'.advance n := afterAll_of_settled settled hjs
    refine ⟨ht, fun q w known files => ?_⟩
    rw [ht] at known ⊢
    exact (serve_of_settled (settled.advance n) (k := ⟨.ensure q, w⟩) rfl known files).1

namespace Trial

/-- A component whose template is the entry `t`. -/
def world (t : Entry) : World Unit where
  files := ⟨"/", [(["a.ts".toList], .file (some "@Component(\x7btemplateUrl:'./t'\x7d) class A\x7b\x7d".toList)),
    (["t".toList], t)]⟩
  state := ()

def host : ResourceHost := ⟨none, .unchanged⟩

def session : Session Program :=
  { options := .standard, host, program := ⟨[], .standard, host, []⟩ }

theorem started (t : Entry) : Session.start compiler .standard host (world t) =
    (.ok session, world t) := rfl

def text : Entry := .file (some "<p/>".toList)

def call (t : Entry) : Call Unit := ⟨.ensure "/a.ts", world t⟩

def once (t : Entry) : Session Program := after compiler session (call t)

theorem asked_again (t : Entry) : ∀ j ∈ [call t, call t], j.world.files = (world t).files ∧
    ∃ q, j.request = .ensure q ∧ (once t).knows q = true := by
  intro j hj
  obtain rfl : j = call t := by simpa using hj
  exact ⟨rfl, "/a.ts", rfl, Session.knows_after compiler rfl⟩

end Trial

set_option maxRecDepth 10000 in
theorem ensure_again_trial :
    afterAll compiler (Trial.once Trial.text) [Trial.call Trial.text, Trial.call Trial.text] =
      Trial.once Trial.text ∧
    afterAll compiler (Trial.once .directory) [Trial.call .directory, Trial.call .directory] =
      { Trial.once .directory with version := 3, rebuilds := 3 } := by
  have clear : (Trial.once Trial.text).program.obstructed (Trial.world Trial.text).files = false := by
    decide +kernel
  have obstructed : (Trial.once .directory).program.obstructed (Trial.world .directory).files =
      true := by
    decide +kernel
  have counters : (Trial.once .directory).version = 1 ∧ (Trial.once .directory).rebuilds = 1 := by
    decide +kernel
  have run (t : Entry) : afterAll compiler (Trial.once t) [Trial.call t, Trial.call t] =
      (Trial.once t).advance
        (if (Trial.once t).program.obstructed (Trial.world t).files then 2 else 0) := by
    obtain ⟨-, -, -, again⟩ := ensure_again (fun s => fingerprint (String.ofList s)) Trial.session
      (k := Trial.call t) rfl
    exact (again _ (Trial.asked_again t)).1
  constructor
  · rw [run, clear, if_neg Bool.false_ne_true, Session.advance_zero]
  · rw [run, obstructed, if_pos rfl, Session.advance, counters.1, counters.2]

set_option maxRecDepth 10000 in
/-- The template of a component is a directory: each time that the component is ensured, its program
is made anew, although no file changed. -/
theorem directory_is_made_again :
    let t := Entry.directory
    (Session.ensure compiler Trial.session "/a.ts" (Trial.world t)).1.toOption = some true ∧
    (Trial.once t).knows "/a.ts" = true ∧
    (Session.ensure compiler (Trial.once t) "/a.ts" (Trial.world t)).1.toOption = some true ∧
    (Trial.once t).rebuilds = 1 ∧ (after compiler (Trial.once t) (Trial.call t)).rebuilds = 2 ∧
    (Trial.once t).version = 1 ∧ (after compiler (Trial.once t) (Trial.call t)).version = 2 := by
  decide +kernel

end PlainCompiler

end LiveLoader
