import LiveLoader.Proofs.Session.Jobs
import LiveLoader.Proofs.Session.Texts
import Mathlib.Algebra.BigOperators.Fin
import Mathlib.Algebra.Order.BigOperators.Group.Finset
import Mathlib.Data.Fintype.BigOperators

/-!
# Jobs at the same time

Jobs use one session in any interleaving of their steps. `InOrder` is the invariant: what the jobs
did is what they do one after another in the order in which they got the lock, where the one that has
it is done in part.
-/

namespace LiveLoader

open Job (performAll)
open Session (Reply)

namespace Shared

section

variable [DecidableEq ι] {c : Compiler σ Program} {jobs : ι → Job} {x : Shared ι σ Program} {i : ι}

theorem poll_of_proceeds (h : x.proceeds i = true) : x.poll c jobs i =
    let next := (jobs i).resume c (x.stage i) x.session x.world
    { session := next.2.1
      world := next.2.2
      stage := fun j => if j = i then next.1 else x.stage j
      holder := if next.1.isDone then none else some i
      served := if x.holder.isNone then x.served ++ [i] else x.served } := if_pos h

theorem poll_of_not_proceeds (h : x.proceeds i = false) : x.poll c jobs i = x :=
  if_neg (Bool.eq_false_iff.mp h)

@[simp] theorem pollAll_nil : x.pollAll c jobs [] = x := rfl
@[simp] theorem pollAll_cons (schedule : List ι) :
    x.pollAll c jobs (i :: schedule) = (x.poll c jobs i).pollAll c jobs schedule := rfl

theorem pollAll_append (js ks : List ι) :
    x.pollAll c jobs (js ++ ks) = (x.pollAll c jobs js).pollAll c jobs ks := List.foldl_append

end

section

variable (c : Compiler σ Program) (jobs : ι → Job) (s : Session Program) (w : World σ)

/-- The jobs that got the lock were done one after another; the last of them, if it has the lock
still, comes to what it comes to when it is done in one go. The others wait. -/
inductive InOrder : Shared ι σ Program → Prop
  | free (stage : ι → Job.Stage Program) (served : List ι) (replies : ι → Reply)
      (s' : Session Program) (w' : World σ) (nodup : served.Nodup)
      (done : ∀ i ∈ served, stage i = .done (replies i))
      (waiting : ∀ i, i ∉ served → stage i = .waiting)
      (performed : performAll c (served.map jobs) s w = (served.map replies, s', w')) :
      InOrder ⟨s', w', stage, none, served⟩
  | held (stage : ι → Job.Stage Program) (before : List ι) (i : ι) (replies : ι → Reply)
      (s₁ s' : Session Program) (w₁ w' : World σ) (nodup : (before ++ [i]).Nodup)
      (done : ∀ j ∈ before, stage j = .done (replies j))
      (waiting : ∀ j, j ∉ before ++ [i] → stage j = .waiting)
      (performed : performAll c (before.map jobs) s w = (before.map replies, s₁, w₁))
      (undone : (stage i).isDone = false)
      (rest : (jobs i).complete c (stage i, s', w') = (jobs i).perform c s₁ w₁) :
      InOrder ⟨s', w', stage, some i, before ++ [i]⟩

end

section

variable [DecidableEq ι] {c : Compiler σ Program} {jobs : ι → Job} {s : Session Program}
  {w : World σ} {x : Shared ι σ Program}

omit [DecidableEq ι] in
theorem inOrder_start : InOrder c jobs s w { session := s, world := w } :=
  .free _ [] (fun _ => .ensured (.ok false)) s w List.nodup_nil (by simp) (fun _ _ => rfl) rfl

/-- A step of the job that has the lock, or just got it. -/
theorem inOrder_resume {stage : ι → Job.Stage Program} {before : List ι} {i : ι}
    {replies : ι → Reply} {s₁ s' : Session Program} {w₁ w' : World σ}
    (nodup : (before ++ [i]).Nodup) (done : ∀ j ∈ before, stage j = .done (replies j))
    (waiting : ∀ j, j ∉ before ++ [i] → stage j = .waiting)
    (performed : performAll c (before.map jobs) s w = (before.map replies, s₁, w₁))
    (rest : (jobs i).complete c (stage i, s', w') = (jobs i).perform c s₁ w₁) :
    let next := (jobs i).resume c (stage i) s' w'
    InOrder c jobs s w ⟨next.2.1, next.2.2, fun j => if j = i then next.1 else stage j,
      if next.1.isDone then none else some i, before ++ [i]⟩ := by
  intro next
  have hi : i ∉ before := fun h => (List.nodup_append.mp nodup).2.2 i h i (by simp) rfl
  have hrest : (jobs i).complete c next = (jobs i).perform c s₁ w₁ := by
    rw [← rest]
    exact Job.complete_resume (stage i)
  have hother (j : ι) (hj : j ≠ i) : (if j = i then next.1 else stage j) = stage j := if_neg hj
  have hbefore (j : ι) (hj : j ∈ before) : j ≠ i := fun h => hi (h ▸ hj)
  have hwaiting (j : ι) (hj : j ∉ before ++ [i]) :
      (if j = i then next.1 else stage j) = .waiting := by
    rw [hother j fun h => hj (by simp [h])]
    exact waiting j hj
  cases hdone : next.1.isDone with
  | false =>
    refine .held _ before i replies s₁ _ w₁ _ nodup ?_ hwaiting performed ?_ ?_
    · intro j hj
      rw [hother j (hbefore j hj)]
      exact done j hj
    · rw [if_pos rfl]
      exact hdone
    · rw [if_pos rfl]
      exact hrest
  | true =>
    obtain ⟨reply, hreply⟩ : ∃ reply, next.1 = .done reply := by
      cases hn : next.1 with
      | done reply => exact ⟨reply, rfl⟩
      | waiting | asking | analyzing program => simp [hn, Job.Stage.isDone] at hdone
    let answers (j : ι) : Reply := if j = i then reply else replies j
    have hanswers : before.map answers = before.map replies :=
      List.map_congr_left fun j hj => if_neg (hbefore j hj)
    have hperform : (jobs i).perform c s₁ w₁ = (reply, next.2.1, next.2.2) := by
      rw [← hrest, show next = (.done reply, next.2.1, next.2.2) from Prod.ext hreply rfl]
      rfl
    refine .free _ (before ++ [i]) answers _ _ nodup ?_ hwaiting ?_
    · intro j hj
      by_cases h : j = i
      · simp only [answers, if_pos h, hreply]
      · have hj' : j ∈ before := by simpa [h] using hj
        simp only [answers, if_neg h, done j hj']
    · rw [List.map_append, List.map_append, Job.performAll_append, performed, hanswers]
      simp only [List.map_cons, List.map_nil, Job.performAll_cons, hperform, performAll, answers,
        if_true]

/-- The order is kept by each poll. -/
theorem inOrder_poll (h : InOrder c jobs s w x) (i : ι) : InOrder c jobs s w (x.poll c jobs i) := by
  cases hp : x.proceeds i with
  | false => rwa [poll_of_not_proceeds hp]
  | true =>
    rw [poll_of_proceeds hp]
    cases h with
    | free stage served replies s' w' nodup done waiting performed =>
      have hi : i ∉ served := by
        intro hi
        simp [proceeds, done i hi, Job.Stage.isWaiting] at hp
      have hnodup : (served ++ [i]).Nodup := by
        rw [List.nodup_append]
        refine ⟨nodup, List.nodup_singleton i, fun j hj k hk => ?_⟩
        rw [List.mem_singleton.mp hk]
        exact fun h => hi (h ▸ hj)
      refine inOrder_resume hnodup done (fun j hj => waiting j fun h => hj ?_) performed ?_
      · exact List.mem_append_left _ h
      · show (jobs i).complete c (stage i, s', w') = _
        rw [waiting i hi]
        rfl
    | held stage before j replies s₁ s' w₁ w' nodup done waiting performed undone rest =>
      obtain rfl : i = j := by simpa [proceeds] using hp
      exact inOrder_resume nodup done waiting performed rest

theorem inOrder_pollAll (h : InOrder c jobs s w x) (schedule : List ι) :
    InOrder c jobs s w (x.pollAll c jobs schedule) := by
  induction schedule generalizing x with
  | nil => exact h
  | cons i schedule ih => exact ih (inOrder_poll h i)

end

/-- A job that can go on is not done. -/
theorem undone_of_proceeds [DecidableEq ι] {c : Compiler σ Program} {jobs : ι → Job}
    {s : Session Program} {w : World σ} {x : Shared ι σ Program} (h : InOrder c jobs s w x) {i : ι}
    (hp : x.proceeds i = true) : (x.stage i).isDone = false := by
  cases h with
  | free stage served replies s' w' nodup done waiting =>
    have hw : (stage i).isWaiting = true := hp
    show (stage i).isDone = false
    cases hi : stage i with
    | done reply => simp [hi, Job.Stage.isWaiting] at hw
    | waiting | asking | analyzing program => rfl
  | held stage before j replies s₁ s' w₁ w' nodup done waiting performed undone =>
    obtain rfl : i = j := by simpa [proceeds] using hp
    exact undone

/-- As long as a job is not done, one of them can go on. -/
theorem exists_proceeds [DecidableEq ι] {c : Compiler σ Program} {jobs : ι → Job}
    {s : Session Program} {w : World σ} {x : Shared ι σ Program} (h : InOrder c jobs s w x) {i : ι}
    (undone : (x.stage i).isDone = false) : ∃ j, x.proceeds j = true := by
  cases h with
  | free stage served replies s' w' nodup done waiting =>
    have hi : i ∉ served := by
      intro hi
      simp [done i hi, Job.Stage.isDone] at undone
    refine ⟨i, ?_⟩
    show (stage i).isWaiting = true
    rw [waiting i hi]
    rfl
  | held stage before j => exact ⟨j, by simp [proceeds]⟩

/-- How many steps the jobs have left at most. -/
def steps [Fintype ι] (x : Shared ι σ Program) : Nat := ∑ i, (x.stage i).steps

theorem steps_le [Fintype ι] (x : Shared ι σ Program) : x.steps ≤ 3 * Fintype.card ι := by
  have h (i : ι) : (x.stage i).steps ≤ 3 := by
    cases x.stage i <;> simp [Job.Stage.steps]
  calc x.steps ≤ ∑ _i : ι, 3 := Finset.sum_le_sum fun i _ => h i
    _ = 3 * Fintype.card ι := by simp [Nat.mul_comm]

theorem steps_eq_zero [Fintype ι] {x : Shared ι σ Program} :
    x.steps = 0 ↔ ∀ i, (x.stage i).isDone = true := by
  unfold steps
  simp only [Finset.sum_eq_zero_iff, Finset.mem_univ, true_imp_iff, Job.steps_eq_zero]

section

variable [Fintype ι] [DecidableEq ι] {c : Compiler σ Program} {jobs : ι → Job}
  {s : Session Program} {w : World σ} {x : Shared ι σ Program}

theorem steps_poll_lt (h : InOrder c jobs s w x) {i : ι} (hp : x.proceeds i = true) :
    (x.poll c jobs i).steps < x.steps := by
  have hlt : ((jobs i).resume c (x.stage i) x.session x.world).1.steps < (x.stage i).steps :=
    Job.steps_resume (undone_of_proceeds h hp)
  rw [poll_of_proceeds hp]
  refine Finset.sum_lt_sum (fun j _ => ?_) ⟨i, Finset.mem_univ i, ?_⟩
  · by_cases hj : j = i
    · subst hj
      simp only [if_true]
      exact Nat.le_of_lt hlt
    · simp only [if_neg hj, Nat.le_refl]
  · simp only [if_true]
    exact hlt

/-- Polls bring the jobs on, unless none that is polled can go on. -/
theorem steps_pollAll (h : InOrder c jobs s w x) (schedule : List ι) :
    (x.pollAll c jobs schedule).steps < x.steps ∨
      (x.pollAll c jobs schedule = x ∧ ∀ i ∈ schedule, x.proceeds i = false) := by
  induction schedule generalizing x with
  | nil => exact .inr ⟨rfl, by simp⟩
  | cons i schedule ih =>
    rw [pollAll_cons]
    cases hp : x.proceeds i with
    | true =>
      have hlt := steps_poll_lt h hp
      rcases ih (inOrder_poll h i) with hle | ⟨heq, -⟩
      · exact .inl (hle.trans hlt)
      · rw [heq]
        exact .inl hlt
    | false =>
      rw [poll_of_not_proceeds hp]
      refine (ih h).imp_right fun ⟨heq, hno⟩ => ⟨heq, fun j hj => ?_⟩
      rcases List.mem_cons.mp hj with rfl | hj
      · exact hp
      · exact hno j hj

/-- A round in which each job is polled brings the jobs on, unless all are done. -/
theorem steps_round (h : InOrder c jobs s w x) {round : List ι} (all : ∀ i, i ∈ round) :
    (x.pollAll c jobs round).steps < x.steps ∨
      (x.pollAll c jobs round = x ∧ ∀ i, (x.stage i).isDone = true) := by
  refine (steps_pollAll h round).imp_right fun ⟨heq, hno⟩ => ⟨heq, fun i => ?_⟩
  by_contra hi
  obtain ⟨j, hj⟩ := exists_proceeds h (Bool.eq_false_iff.mpr hi)
  simp [hno j (all j)] at hj

theorem done_of_rounds (h : InOrder c jobs s w x) {rounds : List (List ι)}
    (all : ∀ round ∈ rounds, ∀ i, i ∈ round) (enough : x.steps ≤ rounds.length) (i : ι) :
    ((x.pollAll c jobs rounds.flatten).stage i).isDone = true := by
  induction rounds generalizing x with
  | nil => exact steps_eq_zero.mp (Nat.le_zero.mp enough) i
  | cons round rounds ih =>
    have hrounds : ∀ round ∈ rounds, ∀ i, i ∈ round :=
      fun r hr => all r (List.mem_cons_of_mem round hr)
    rw [List.flatten_cons, pollAll_append]
    rw [List.length_cons] at enough
    rcases steps_round h (all round List.mem_cons_self) with hlt | ⟨heq, hdone⟩
    · exact ih (inOrder_pollAll h round) hrounds (by omega)
    · rw [heq]
      exact ih h hrounds (by rw [steps_eq_zero.mpr hdone]; exact Nat.zero_le _)

end

/-- When all jobs are done, each got the lock once, and they were done in that order. -/
theorem performed_of_done [DecidableEq ι] {c : Compiler σ Program} {jobs : ι → Job}
    {s : Session Program} {w : World σ} {x : Shared ι σ Program} (h : InOrder c jobs s w x)
    (finished : ∀ i, (x.stage i).isDone = true) :
    ∃ replies : ι → Reply, (∀ i, x.stage i = .done (replies i)) ∧
      x.served.Nodup ∧ (∀ i, i ∈ x.served) ∧
      performAll c (x.served.map jobs) s w = (x.served.map replies, x.session, x.world) := by
  cases h with
  | free stage served replies s' w' nodup done waiting performed =>
    have hserved (i : ι) : i ∈ served := by
      by_contra hi
      have hdone : (stage i).isDone = true := finished i
      simp [waiting i hi, Job.Stage.isDone] at hdone
    exact ⟨replies, fun i => done i (hserved i), nodup, hserved, performed⟩
  | held stage before i replies s₁ s' w₁ w' nodup done waiting performed undone =>
    have hdone : (stage i).isDone = true := finished i
    rw [undone] at hdone
    cases hdone

/-- Files that are compiled at the same time come out as files that are compiled one after another, in
some order; there is a result for each of them. -/
theorem compileAll_in_order (c : Compiler σ Program) (s : Session Program) (w : World σ)
    (paths : List Path) :
    ∃ (order : List (Fin paths.length)) (results : Fin paths.length → Result Emitted),
      (order.Nodup ∧ ∀ i, i ∈ order) ∧
      performAll c (order.map fun i => .compile (paths.get i)) s w =
        (order.map fun i => .emitted (results i), (s.compileAll c w paths).2) ∧
      (s.compileAll c w paths).1 = (List.finRange paths.length).map results := by
  let jobs (i : Fin paths.length) : Job := .compile (paths.get i)
  let rounds := List.replicate (3 * paths.length) (List.finRange paths.length)
  let start : Shared (Fin paths.length) σ Program := { session := s, world := w }
  let x := start.pollAll c jobs rounds.flatten
  have all : ∀ round ∈ rounds, ∀ i, i ∈ round := by
    intro round hround i
    rw [List.eq_of_mem_replicate hround]
    exact List.mem_finRange i
  have enough : start.steps ≤ rounds.length :=
    calc start.steps ≤ 3 * Fintype.card (Fin paths.length) := steps_le start
      _ = 3 * paths.length := by rw [Fintype.card_fin]
      _ = rounds.length := List.length_replicate.symm
  have finished : ∀ i, (x.stage i).isDone = true := done_of_rounds inOrder_start all enough
  obtain ⟨replies, hreplies, nodup, hserved, performed⟩ :=
    performed_of_done (inOrder_pollAll inOrder_start rounds.flatten) finished
  have hemitted (i : Fin paths.length) : ∃ r, replies i = .emitted r := by
    have hall := Job.replies_performAll (c := c) (x.served.map jobs) s w
    rw [performed, List.forall₂_map_left_iff, List.forall₂_map_right_iff, List.forall₂_same] at hall
    obtain ⟨s', w', h⟩ := hall i (hserved i)
    exact ⟨_, h⟩
  obtain ⟨results, hresults⟩ := Classical.skolem.mp hemitted
  refine ⟨x.served, results, ⟨nodup, hserved⟩, ?_, ?_⟩
  · have hmap : x.served.map replies = x.served.map fun i => .emitted (results i) :=
      List.map_congr_left fun i _ => hresults i
    rw [← hmap]
    exact performed
  · show (List.finRange paths.length).filterMap _ = _
    rw [← List.filterMap_eq_map]
    refine List.filterMap_congr fun i _ => ?_
    show (x.stage i).emitted? = some (results i)
    rw [hreplies i, hresults i]
    rfl

/-- Jobs on a session, in any interleaving of their steps. Wherever they are, a number of rounds in
which each of them is polled brings all of them to their end. When they are done, each got the lock
once; replies, session and world are those of the whole jobs one after another, in the order in
which they got the lock; and each place that was asked for and not known is one root more. If the
jobs one after another are undisturbed, none that compiles answers that its source is unknown, and
in a session that is not stale, as one is in which no call failed, jobs without texts put one program
in place for each new root. -/
theorem jobs_in_order (c : Compiler σ Program) {options : CompilerOptions} {host : ResourceHost}
    {w₀ w₀' : World σ} {s₀ : Session Program}
    (started : Session.start c options host w₀ = (.ok s₀, w₀')) (ks : List (Session.Call σ))
    {ι : Type} [Fintype ι] [DecidableEq ι] (jobs : ι → Job) (w : World σ) (schedule : List ι) :
    let s := Session.afterAll c s₀ ks
    let x := pollAll c jobs { session := s, world := w } schedule
    (∀ rounds : List (List ι), (∀ round ∈ rounds, ∀ i, i ∈ round) →
      3 * Fintype.card ι ≤ rounds.length →
      ∀ i, ((x.pollAll c jobs rounds.flatten).stage i).isDone = true) ∧
    ((∀ i, (x.stage i).isDone = true) →
      ∃ (replies : ι → Reply) (new : List Path), (∀ i, x.stage i = .done (replies i)) ∧
        (x.served.Nodup ∧ ∀ i, i ∈ x.served) ∧
        performAll c (x.served.map jobs) s w = (x.served.map replies, x.session, x.world) ∧
        (x.session.roots = s.roots ++ new ∧ new.Pairwise (fun p q => p.same q = false) ∧
          (∀ r ∈ new, s.knows r = false ∧ ∃ i, (jobs i).root? = some r) ∧
          ∀ i p, (jobs i).root? = some p → ∃ r ∈ x.session.roots, r.same p = true) ∧
        (Job.Undisturbed c (x.served.map jobs) s w →
          (∀ i, (∀ p, jobs i ≠ .emit p) → ∀ q, replies i ≠ .emitted (.error (.unknownSource q))) ∧
          (s.stale = false → (∀ i p text, jobs i ≠ .compileSource p text) →
            x.session.rebuilds = s.rebuilds + new.length ∧
            x.session.version = s.version + new.length))) ∧
    ((∀ js k, js ++ [k] <+: ks →
        ∀ e, Session.reply c (Session.afterAll c s₀ js) k ≠ .ensured (.error e)) →
      s.stale = false) := by
  intro s x
  have order : InOrder c jobs s w x := inOrder_pollAll inOrder_start schedule
  have hs : Session.Consistent options host s := Session.Consistent.of_calls started ks
  refine ⟨?_, ?_, ?_⟩
  · intro rounds all enough
    exact done_of_rounds order all ((steps_le x).trans enough)
  · intro finished
    obtain ⟨replies, hreplies, nodup, hserved, performed⟩ := performed_of_done order finished
    have hsession : (performAll c (x.served.map jobs) s w).2.1 = x.session := by rw [performed]
    obtain ⟨new, hnew, distinct, hfresh, hasked, hcounted⟩ :=
      Job.roots_performAll (w := w) hs (x.served.map jobs)
    rw [hsession] at hnew hasked hcounted
    refine ⟨replies, new, hreplies, ⟨nodup, hserved⟩, performed,
      ⟨hnew, distinct, fun r hr => ?_, fun i p asked => ?_⟩, fun undisturbed => ⟨?_, ?_⟩⟩
    · obtain ⟨unknown, job, hjob, asked⟩ := hfresh r hr
      obtain ⟨i, -, rfl⟩ := List.mem_map.mp hjob
      exact ⟨unknown, i, asked⟩
    · exact hasked (jobs i) (List.mem_map.mpr ⟨i, hserved i, rfl⟩) p asked
    · intro i compiles
      have hall := Job.replies_of_undisturbed undisturbed
      rw [performed, List.forall₂_map_left_iff, List.forall₂_map_right_iff,
        List.forall₂_same] at hall
      exact hall i (hserved i) compiles
    · intro fresh plain
      have hplain : ∀ job ∈ x.served.map jobs, ∀ p text, job ≠ .compileSource p text := by
        intro job hjob
        obtain ⟨i, -, rfl⟩ := List.mem_map.mp hjob
        exact plain i
      obtain ⟨-, hrebuilds⟩ := Job.counters_of_undisturbed undisturbed hplain fresh
      rw [hsession, hnew, List.length_append] at hrebuilds
      have hcounted' := hs.counted
      constructor
      · omega
      · omega
  · intro ok
    obtain ⟨program, rfl, -⟩ := Session.start_eq started
    exact Session.fresh_of_calls c rfl ok

namespace Trial

def steady : Compiler Nat Scripted.Program := Scripted.Script.compiler {}

def idle : Session Scripted.Program :=
  { options := .standard, host := Session.Trial.host, program := ⟨[], [], false⟩ }

theorem started : Session.start steady .standard Session.Trial.host Session.Trial.world =
    (.ok idle, { Session.Trial.world with state := 1 }) := rfl

/-- One of two files is compiled twice. -/
def jobs : Fin 3 → Job
  | 0 | 2 => .compile "/app/a.ts"
  | 1 => .compile "/app/b.ts"

/-- The first job is polled twice in vain before it gets the lock. -/
def schedule : List (Fin 3) := [1, 0, 1, 2, 0, 2, 0, 1, 0]

theorem smooth {job : Job} {s : Session Scripted.Program} {w : World Nat} {b : Bool}
    (ok : Session.reply steady s ⟨job.request, w⟩ = .ensured (.ok b))
    (roots : (job.perform steady s w).2.1.known = (job.perform steady s w).2.1.program.roots.reverse)
    (emits : (steady.emit (job.perform steady s w).2.1.program job.path
      ((job.perform steady s w).2.1.emitTransformers steady)).isOk = true) :
    job.Smooth steady s w where
  ensured e h := by
    rw [ok] at h
    cases h
  unchanged _ := rfl
  contained r known := by
    rw [Session.knows, roots, List.any_reverse] at known
    simpa [steady, Scripted.Script.compiler, Scripted.Program.holds] using known
  emitted _ q h := by
    rw [h] at emits
    cases emits

end Trial

set_option maxRecDepth 10000 in
theorem jobs_in_order_trial :
    let x := pollAll Trial.steady Trial.jobs
      { session := Trial.idle, world := Session.Trial.world } Trial.schedule
    x.served = [1, 2, 0] ∧ x.session.roots = (["/app/b.ts", "/app/a.ts"] : List Path) ∧
    x.session.rebuilds = 2 ∧
    ∃ replies, (∀ i, x.stage i = .done (replies i)) ∧
      performAll Trial.steady (x.served.map Trial.jobs) Trial.idle Session.Trial.world =
        (x.served.map replies, x.session, x.world) ∧
      ∀ i q, replies i ≠ .emitted (.error (.unknownSource q)) := by
  intro x
  have served : x.served = [1, 2, 0] := by decide +kernel
  have roots : x.session.roots = (["/app/b.ts", "/app/a.ts"] : List Path) := by decide +kernel
  have finished : ∀ i, (x.stage i).isDone = true := by decide +kernel
  have undisturbed : Job.Undisturbed Trial.steady (x.served.map Trial.jobs) Trial.idle
      Session.Trial.world := by
    rw [served]
    refine ⟨Trial.smooth (b := true) rfl ?_ ?_, Trial.smooth (b := true) rfl ?_ ?_,
      Trial.smooth (b := false) rfl ?_ ?_, trivial⟩
    all_goals decide +kernel
  obtain ⟨-, done, -⟩ := jobs_in_order Trial.steady Trial.started [] Trial.jobs Session.Trial.world
    Trial.schedule
  obtain ⟨replies, new, hreplies, -, performed, ⟨hnew, -⟩, smooth⟩ := done finished
  obtain ⟨compiled, counted⟩ := smooth undisturbed
  have hroots : new = x.session.roots := hnew.symm
  have compiles : ∀ i, Trial.jobs i = .compile (Trial.jobs i).path := by decide
  have hcompile (i : Fin 3) (p : Path) : Trial.jobs i ≠ .emit p := by
    rw [compiles i]
    simp
  have hplain (i : Fin 3) (p : Path) (text : List Char) : Trial.jobs i ≠ .compileSource p text := by
    rw [compiles i]
    simp
  refine ⟨served, roots, ?_, replies, hreplies, performed, fun i => compiled i (hcompile i)⟩
  have hcount := (counted rfl hplain).1
  rw [hroots, roots] at hcount
  exact hcount

end Shared

end LiveLoader
