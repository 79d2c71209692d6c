import LiveLoader.Proofs.Session.Roots
import Mathlib.Data.List.Forall2

/-!
# Jobs one after another

A job is done in one go, or step by step as the compiler lets it: what comes of it is the same. Jobs
that are done one after another are calls on the session.
-/

namespace LiveLoader

open Session (Reply Call Consistent)

namespace Job

/-- What a job asks of the session besides its output. -/
def request : Job → Session.Request
  | compile path => .ensure path
  | compileSource path text => .ensureCurrent path text
  | ensure path => .ensure path
  | emit path => .emit path

/-- The path that a job asks to be a root. -/
def root? : Job → Option Path
  | emit _ => none
  | job => some job.path

theorem root?_cases (job : Job) :
    (∃ path, job = emit path) ∨ job.root? = some job.path := by
  cases job with
  | emit path => exact .inl ⟨path, rfl⟩
  | compile | compileSource | ensure => exact .inr rfl

section

variable (c : Compiler σ Program)

/-- Does a job in one go. -/
def perform (job : Job) (s : Session Program) (w : World σ) : Reply × Session Program × World σ :=
  match job with
  | compile path =>
    let (r, s, w) := s.compile c path w
    (.emitted r, s, w)
  | compileSource path text =>
    let (r, s, w) := s.compileSource c path text w
    (.emitted r, s, w)
  | ensure path =>
    let (r, s, w) := s.ensure c path w
    (.ensured r, s, w)
  | emit path => (.emitted (s.emit c path), s, w)

/-- Does jobs one after another. -/
def performAll : List Job → Session Program → World σ → List Reply × Session Program × World σ
  | [], s, w => ([], s, w)
  | job :: jobs, s, w =>
    let (reply, s, w) := job.perform c s w
    let (replies, s, w) := performAll jobs s w
    (reply :: replies, s, w)

/-- What a job comes to when its path was ensured, or could not be. -/
def conclude (job : Job) (x : Result Bool × Session Program × World σ) :
    Reply × Session Program × World σ := (job.answer c x.1 x.2.1, x.2)

/-- What a job still comes to from where it is suspended. -/
def complete (job : Job) (x : Stage Program × Session Program × World σ) :
    Reply × Session Program × World σ :=
  match x with
  | (.waiting, s, w) => job.perform c s w
  | (.asking, s, w) => job.conclude c
    (match c.inputsChanged s.program w with
    | (true, w) => s.renew c job.path w
    | (false, w) => (.ok false, s, w))
  | (.analyzing program, s, w) => job.conclude c
    (match c.analyze program w with
    | (.error e, w) => (.error e, { s with stale := true }, w)
    | (.ok program, w) => (.ok true, s.install program, w.write [(s.install program).installed]))
  | (.done reply, s, w) => (reply, s, w)

/-- How many steps a job has left at most. -/
def Stage.steps : Stage Program → Nat
  | waiting => 3
  | asking => 2
  | analyzing _ => 1
  | done _ => 0

variable {c} {job : Job} {s : Session Program} {w : World σ}

theorem performAll_cons (job : Job) (jobs : List Job) (s : Session Program) (w : World σ) :
    performAll c (job :: jobs) s w =
      let done := job.perform c s w
      let rest := performAll c jobs done.2.1 done.2.2
      (done.1 :: rest.1, rest.2) := rfl

theorem performAll_append (js ks : List Job) (s : Session Program) (w : World σ) :
    performAll c (js ++ ks) s w =
      let done := performAll c js s w
      let rest := performAll c ks done.2.1 done.2.2
      (done.1 ++ rest.1, rest.2) := by
  induction js generalizing s w with
  | nil => rfl
  | cons job js ih =>
    simp only [List.cons_append, performAll_cons, ih]

/-- Each reply is what its job comes to in some session and world. -/
theorem replies_performAll (jobs : List Job) (s : Session Program) (w : World σ) :
    List.Forall₂ (fun job reply => ∃ s w, reply = (job.perform c s w).1) jobs
      (performAll c jobs s w).1 := by
  induction jobs generalizing s w with
  | nil => exact .nil
  | cons job jobs ih => exact .cons ⟨s, w, rfl⟩ (ih _ _)

/-- A job that asks for a path ensures it, once it took note of its text. -/
theorem perform_eq {path : Path} (asked : job.root? = some path) : job.perform c s w =
    job.conclude c ((job.note c s).ensure c path w) := by
  cases job with
  | emit p => cases asked
  | ensure p =>
    cases asked
    rfl
  | compile p =>
    cases asked
    show (_, _) = (_, _)
    simp only [note, Job.path]
    rcases s.ensure c p w with ⟨r, t⟩
    cases r <;> rfl
  | compileSource p text =>
    cases asked
    show (_, _) = (_, _)
    simp only [Session.ensureCurrent, note, Job.path]
    rcases (s.noteText c p text).ensure c p w with ⟨r, t⟩
    cases r <;> rfl

theorem begin_eq {path : Path} (asked : job.root? = some path) : job.begin c s w =
    if (job.note c s).knows path && !(job.note c s).stale then (.asking, job.note c s, w)
    else job.create c (job.note c s) w := by
  cases job with
  | emit path => cases asked
  | compile | compileSource | ensure =>
    cases asked
    rfl

/-- From the lock on, making a program anew is done in the steps of `create` and of the analysis. -/
theorem complete_create :
    job.complete c (job.create c s w) = job.conclude c (s.renew c job.path w) := by
  unfold create Session.renew Session.rebuild Session.build
  simp only
  rcases c.create (s.addRoot job.path).roots (s.addRoot job.path).options
    (s.addRoot job.path).host w with ⟨r, v⟩
  cases r with
  | error e => rfl
  | ok program =>
    simp only [complete]
    rcases c.analyze program v with ⟨r, u⟩
    cases r <;> rfl

theorem complete_begin : job.complete c (job.begin c s w) = job.perform c s w := by
  rcases root?_cases job with ⟨path, rfl⟩ | asked
  · rfl
  · rw [perform_eq asked, begin_eq asked, Session.ensure]
    split
    · rfl
    · exact complete_create

/-- A step of a job leaves as it is what the job comes to. -/
theorem complete_resume (stage : Stage Program) :
    job.complete c (job.resume c stage s w) = job.complete c (stage, s, w) := by
  cases stage with
  | waiting => exact complete_begin
  | asking =>
    simp only [resume, complete]
    rcases c.inputsChanged s.program w with ⟨changed, v⟩
    cases changed with
    | true => exact complete_create
    | false => rfl
  | analyzing program =>
    simp only [resume, complete]
    rcases c.analyze program w with ⟨r, v⟩
    cases r <;> rfl
  | done reply => rfl

theorem steps_eq_zero {stage : Stage Program} : stage.steps = 0 ↔ stage.isDone = true := by
  cases stage <;> simp [Stage.steps, Stage.isDone]

theorem steps_create : (job.create c s w).1.steps ≤ 1 := by
  unfold create
  simp only
  split
  · exact Nat.zero_le 1
  · exact Nat.le_refl 1

theorem steps_begin : (job.begin c s w).1.steps ≤ 2 := by
  have hcreate (t : Session Program) : (job.create c t w).1.steps ≤ 2 :=
    Nat.le_succ_of_le steps_create
  unfold begin
  split
  · exact Nat.zero_le 2
  · simp only
    split
    · exact Nat.le_refl 2
    · exact hcreate _

/-- A step of a job that is not done is one step less. -/
theorem steps_resume {stage : Stage Program} (h : stage.isDone = false) :
    (job.resume c stage s w).1.steps < stage.steps := by
  cases stage with
  | waiting => exact Nat.lt_succ_of_le steps_begin
  | asking =>
    simp only [resume]
    split
    · exact Nat.lt_succ_of_le steps_create
    · exact Nat.zero_lt_two
  | analyzing program =>
    simp only [resume]
    split
    · exact Nat.zero_lt_one
    · exact Nat.zero_lt_one
  | done reply => simp [Stage.isDone] at h

theorem root?_call (job : Job) (w : World σ) : Call.root? ⟨job.request, w⟩ = job.root? := by
  cases job <;> rfl

theorem noted_call (job : Job) (s : Session Program) (w : World σ) :
    Session.noted c s ⟨job.request, w⟩ = job.note c s := by
  cases job <;> rfl

theorem perform_call : (job.perform c s w).2 = (Session.serve c s ⟨job.request, w⟩).2 := by
  rcases root?_cases job with ⟨path, rfl⟩ | asked
  · rfl
  · rw [perform_eq asked, Session.serve_of_root? c s ((root?_call job w).trans asked), noted_call]
    rfl

theorem session_perform : (job.perform c s w).2.1 = Session.after c s ⟨job.request, w⟩ :=
  congrArg Prod.fst perform_call

/-- Jobs leave the session as calls do for the same paths. -/
theorem exists_calls (jobs : List Job) (s : Session Program) (w : World σ) :
    ∃ ks : List (Call σ), ks.map Call.root? = jobs.map root? ∧
      (performAll c jobs s w).2.1 = Session.afterAll c s ks := by
  induction jobs generalizing s w with
  | nil => exact ⟨[], rfl, rfl⟩
  | cons job jobs ih =>
    obtain ⟨ks, hks, hs⟩ := ih (job.perform c s w).2.1 (job.perform c s w).2.2
    refine ⟨⟨job.request, w⟩ :: ks, ?_, ?_⟩
    · rw [List.map_cons, List.map_cons, hks, root?_call]
    · rw [Session.afterAll_cons, ← session_perform]
      exact hs

/-- The roots after jobs: those before, and each place that a job asks for and that was not known,
once. -/
theorem roots_performAll {options : CompilerOptions} {host : ResourceHost}
    (h : Consistent options host s) (jobs : List Job) :
    let t := (performAll c jobs s w).2.1
    ∃ new, t.roots = s.roots ++ new ∧ new.Pairwise (fun p q => p.same q = false) ∧
      (∀ r ∈ new, s.knows r = false ∧ ∃ job ∈ jobs, job.root? = some r) ∧
      (∀ job ∈ jobs, ∀ p, job.root? = some p → ∃ r ∈ t.roots, r.same p = true) ∧
      t.version = t.rebuilds := by
  intro t
  obtain ⟨ks, hks, ht⟩ := exists_calls (c := c) jobs s w
  have hc : Consistent options host t := by
    rw [show t = _ from ht]
    exact Session.afterAll_induction c h (fun _ k h => h.call c k) ks
  obtain ⟨new, hnew, distinct, fresh⟩ := Session.exists_new_roots c h ks
  rw [← ht] at hnew
  refine ⟨new, hnew, distinct, ?_, ?_, hc.counted⟩
  · intro r hr
    obtain ⟨unknown, k, hk, asked⟩ := fresh r hr
    have hmem : some r ∈ jobs.map root? := by
      rw [← hks, ← asked]
      exact List.mem_map.mpr ⟨k, hk, rfl⟩
    exact ⟨unknown, List.mem_map.mp hmem⟩
  · intro job hjob p asked
    have hmem : some p ∈ ks.map Call.root? := by
      rw [hks, ← asked]
      exact List.mem_map.mpr ⟨job, hjob, rfl⟩
    obtain ⟨k, hk, hp⟩ := List.mem_map.mp hmem
    refine (hc.known_iff p).mp ?_
    rw [show t = _ from ht]
    exact Session.known_of_calls c h hk hp

/-- Nothing fails when a job is done: a program can be made if one is, no input is told to have
changed, the program has all roots, and the compiler emits them. -/
structure Smooth (c : Compiler σ Program) (job : Job) (s : Session Program) (w : World σ) :
    Prop where
  ensured : ∀ e, Session.reply c s ⟨job.request, w⟩ ≠ .ensured (.error e)
  unchanged : s.knows job.path = true → (c.inputsChanged s.program w).1 = false
  contained : ∀ r, (job.perform c s w).2.1.knows r = true →
    c.contains (job.perform c s w).2.1.program r = true
  emitted : (∀ p, job ≠ ensure p) → ∀ q, c.emit (job.perform c s w).2.1.program job.path
    ((job.perform c s w).2.1.emitTransformers c) ≠ .error (.unknownSource q)

/-- Jobs that are done one after another are smooth. -/
def Undisturbed (c : Compiler σ Program) : List Job → Session Program → World σ → Prop
  | [], _, _ => True
  | job :: jobs, s, w => job.Smooth c s w ∧
    Undisturbed c jobs (job.perform c s w).2.1 (job.perform c s w).2.2

theorem emit_ne_unknownSource {path : Path} (contained : c.contains s.program path = true)
    (emitted : ∀ q, c.emit s.program path (s.emitTransformers c) ≠ .error (.unknownSource q))
    (q : Path) : s.emit c path ≠ .error (.unknownSource q) := by
  unfold Session.emit
  rw [contained]
  cases h : c.emit s.program path (s.emitTransformers c) with
  | error e =>
    intro he
    simp only [Bool.not_true, Bool.false_eq_true, if_false] at he
    rw [Except.error.inj he] at h
    exact emitted q h
  | ok artifacts =>
    simp only [Bool.not_true, Bool.false_eq_true, if_false]
    split <;> simp

theorem Smooth.exists_ensured (smooth : job.Smooth c s w) {path : Path}
    (asked : job.root? = some path) :
    ∃ b x, (job.note c s).ensure c path w = (.ok b, x) := by
  have ensured := smooth.ensured
  rw [Session.reply_of_root? c s ((root?_call job w).trans asked), noted_call] at ensured
  rcases h : (job.note c s).ensure c path w with ⟨r, x⟩
  rw [h] at ensured
  cases r with
  | error e => exact absurd rfl (ensured e)
  | ok b => exact ⟨b, x, rfl⟩

theorem perform_ne_unknownSource (smooth : job.Smooth c s w)
    (asked : job.root? = some job.path) (q : Path) :
    (job.perform c s w).1 ≠ .emitted (.error (.unknownSource q)) := by
  have known : (job.perform c s w).2.1.knows job.path = true := by
    rw [session_perform]
    exact Session.knows_after c ((root?_call job w).trans asked)
  have contained := smooth.contained _ known
  have emitted := smooth.emitted
  obtain ⟨b, x, hx⟩ := smooth.exists_ensured asked
  rw [perform_eq asked, hx] at contained emitted ⊢
  cases job with
  | emit path => cases asked
  | ensure path =>
    intro h
    cases h
  | compile path | compileSource path text =>
    intro h
    exact emit_ne_unknownSource contained (emitted (by simp)) q (Session.Reply.emitted.inj h)

/-- In an undisturbed run no file that is compiled is unknown. -/
theorem replies_of_undisturbed {jobs : List Job} (h : Undisturbed c jobs s w) :
    List.Forall₂ (fun job reply => (∀ path, job ≠ emit path) →
      ∀ q, reply ≠ .emitted (.error (.unknownSource q))) jobs (performAll c jobs s w).1 := by
  induction jobs generalizing s w with
  | nil => exact .nil
  | cons job jobs ih =>
    refine .cons (fun compiles => ?_) (ih h.2)
    rcases root?_cases job with ⟨path, rfl⟩ | asked
    · exact absurd rfl (compiles path)
    · exact perform_ne_unknownSource h.1 asked

/-- A path is ensured by making the program anew just if it is not known, as long as the session is
not stale and no input changed. -/
theorem counters_of_ensure {path : Path} {b : Bool} {x : Session Program × World σ}
    (fresh : s.stale = false)
    (unchanged : s.knows path = true → (c.inputsChanged s.program w).1 = false)
    (ensured : s.ensure c path w = (.ok b, x)) :
    x.1.stale = false ∧ x.1.rebuilds + s.roots.length = s.rebuilds + x.1.roots.length := by
  by_cases known : s.knows path = true
  · have hfalse := unchanged known
    rw [Session.ensure_of_fresh c s path known fresh w] at ensured
    rcases hc : c.inputsChanged s.program w with ⟨changed, v⟩
    rw [hc] at hfalse ensured
    cases changed with
    | true => cases hfalse
    | false =>
      cases ensured
      exact ⟨fresh, rfl⟩
  · rcases Session.ensure_cases c s path w with ⟨hknown, -⟩ | ⟨v, -, hv⟩
    · exact absurd hknown known
    · rw [hv] at ensured
      rcases Session.renew_cases c s path v with ⟨e, v', -, hr⟩ | ⟨program, v', -, hr⟩
      · rw [hr] at ensured
        cases ensured
      · rw [hr] at ensured
        cases ensured
        refine ⟨rfl, ?_⟩
        simp only [Session.install, Session.addRoot_rebuilds, Session.addRoot_roots, if_neg known,
          List.length_append, List.length_singleton]
        omega

theorem counters_of_smooth (smooth : job.Smooth c s w)
    (plain : ∀ path text, job ≠ compileSource path text) (fresh : s.stale = false) :
    let t := (job.perform c s w).2.1
    t.stale = false ∧ t.rebuilds + s.roots.length = s.rebuilds + t.roots.length := by
  have hnote : job.note c s = s := by
    cases job with
    | compileSource path text => exact absurd rfl (plain path text)
    | compile | ensure | emit => rfl
  rcases root?_cases job with ⟨path, rfl⟩ | asked
  · exact ⟨fresh, rfl⟩
  · obtain ⟨b, x, hx⟩ := smooth.exists_ensured asked
    rw [perform_eq asked, hx]
    rw [hnote] at hx
    exact counters_of_ensure fresh smooth.unchanged hx

theorem counters_of_undisturbed {jobs : List Job} (h : Undisturbed c jobs s w)
    (plain : ∀ job ∈ jobs, ∀ path text, job ≠ compileSource path text) (fresh : s.stale = false) :
    let t := (performAll c jobs s w).2.1
    t.stale = false ∧ t.rebuilds + s.roots.length = s.rebuilds + t.roots.length := by
  induction jobs generalizing s w with
  | nil => exact ⟨fresh, rfl⟩
  | cons job jobs ih =>
    obtain ⟨fresh', counted⟩ := counters_of_smooth h.1 (plain job List.mem_cons_self) fresh
    obtain ⟨hfresh, hcounted⟩ := ih h.2 (fun j hj => plain j (List.mem_cons_of_mem job hj)) fresh'
    refine ⟨hfresh, ?_⟩
    simp only [performAll_cons]
    omega

end

end Job

end LiveLoader
