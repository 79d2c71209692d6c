import LiveLoader.Proofs.PlainCompiler.Contents

/-!
# Programs as tables

What an analysis finds out can be kept in three tables and a counter, which are cleared first and then
filled root by root. Over different places they come to hold what the sources of the program say,
whatever they held before.
-/

namespace LiveLoader.PlainCompiler

open Resource

/-- Values under paths. -/
abbrev Table (α : Type) := List (Path × α)

namespace Table

variable {α : Type}

/-- What stands under a place. -/
def find? (t : Table α) (path : Path) : Option α :=
  (List.find? (fun e => e.1.same path) t).map Prod.snd

/-- Puts a value under a path. What stands under the same place gives way to it. -/
def insert (path : Path) (a : α) : Table α → Table α
  | [] => [(path, a)]
  | e :: t => if e.1.same path then (e.1, a) :: t else e :: insert path a t

theorem insert_of_new {path : Path} {t : Table α} (new : ∀ e ∈ t, e.1.same path = false) (a : α) :
    insert path a t = t ++ [(path, a)] := by
  induction t with
  | nil => rfl
  | cons e t ih =>
    rw [insert, new e List.mem_cons_self, if_neg Bool.false_ne_true,
      ih fun e he => new e (List.mem_cons_of_mem _ he), List.cons_append]

end Table

structure Tables where
  texts : Table (List Char) := []
  components : Table Inlined := []
  missing : Table Path := []
  problems : Nat := 0

namespace Tables

/-- Takes down the text of a root and what its resources come to. -/
def enter (t : Tables) (path : Path) (text : List Char) (resources : Resources) : Tables :=
  let t := match resources with
    | .none => t
    | .inlined parts => { t with components := t.components.insert path parts }
    | .missing file => { t with missing := t.missing.insert path file }
  { t with texts := t.texts.insert path text }

variable (digest : List Char → String) (host : ResourceHost) (fs : FileSystem)

/-- Fills tables root by root. A failure leaves them as they are by then. -/
def fill : List (Path × List Char) → Tables → Logged (Result Unit × Tables)
  | [], t => return (.ok (), t)
  | (path, text) :: rest, t => do
    let reading := Syntax.read (.ofPath path) text
    warnOfProblems path reading.problems
    let t := { t with problems := t.problems + reading.problems }
    match ← (resourcesOf digest host fs path (properties reading.program)).run with
    | .ok resources => fill rest (t.enter path text resources)
    | .error e => return (.error e, t)

/-- Reads all roots, clears the tables and fills them again. -/
def refill (roots : List Path) (old : Tables) : Logged (Result Unit × Tables) := do
  let texts ← readRoots fs roots
  fill digest host fs texts { old with texts := [], components := [], missing := [], problems := 0 }

end Tables

def Source.inlined? (s : Source) : Option Inlined :=
  match s.resources with
  | .inlined parts => some parts
  | _ => none

def Source.missing? (s : Source) : Option Path :=
  match s.resources with
  | .missing file => some file
  | _ => none

/-- What the sources of a program say, in tables. -/
def Program.tables (p : Program) : Tables where
  texts := p.sources.map fun s => (s.path, s.text)
  components := p.components
  missing := p.missing
  problems := p.diagnostics

namespace Program

variable {p : Program}

theorem diagnostics_concat (done : List Source) (s : Source) :
    { p with sources := done ++ [s] }.diagnostics =
      { p with sources := done }.diagnostics + s.problems := by
  induction done with
  | nil => exact Nat.add_comm _ _
  | cons t done ih =>
    simp only [diagnostics, List.cons_append, List.foldr_cons] at ih ⊢
    rw [ih, Nat.add_assoc]

/-- A further source is one that is entered. -/
theorem tables_concat {done : List Source} {s : Source}
    (new : ∀ t ∈ done, t.path.same s.path = false) :
    { p with sources := done ++ [s] }.tables =
      { { p with sources := done }.tables with
        problems := { p with sources := done }.diagnostics + s.problems }.enter
          s.path s.text s.resources := by
  have texts : ∀ e ∈ { p with sources := done }.tables.texts, e.1.same s.path = false := by
    intro e he
    obtain ⟨t, ht, rfl⟩ := List.mem_map.mp he
    exact new t ht
  have components : ∀ e ∈ { p with sources := done }.components, e.1.same s.path = false := by
    intro e he
    obtain ⟨t, ht, h, -⟩ := mem_components.mp (List.mem_map_of_mem he)
    rw [← h]
    exact new t ht
  have missing : ∀ e ∈ { p with sources := done }.missing, e.1.same s.path = false := by
    intro e he
    obtain ⟨t, ht, h, -⟩ := mem_missing.mp (List.mem_map_of_mem he)
    rw [← h]
    exact new t ht
  have htexts := Table.insert_of_new texts s.text
  simp only [tables, Tables.enter, diagnostics_concat] at htexts ⊢
  cases hs : s.resources with
  | none => simp [Program.components, Program.missing, hs, htexts]
  | inlined parts =>
    simp only [Table.insert_of_new components]
    simp [Program.components, Program.missing, hs, htexts]
  | missing file =>
    simp only [Table.insert_of_new missing]
    simp [Program.components, Program.missing, hs, htexts]

end Program

section

variable {digest : List Char → String} {host : ResourceHost} {fs : FileSystem} {p : Program}

/-- What has been filled in at any time are the sources of the roots that were gone through. -/
theorem fill_eq (done : List Source) {texts : List (Path × List Char)}
    (apart : (done.map Source.path ++ texts.map Prod.fst).Pairwise fun a b => a.same b = false) :
    (Tables.fill digest p.host fs texts { p with sources := done }.tables).value =
      (.ok (), { p with
        sources :=
          done ++ texts.map fun (path, text) => analyzed digest p.host fs path text }.tables) := by
  induction texts generalizing done with
  | nil => simp [Tables.fill]
  | cons r texts ih =>
    obtain ⟨path, text⟩ := r
    let s := analyzed digest p.host fs path text
    have new : ∀ t ∈ done, t.path.same s.path = false := fun t ht =>
      (List.pairwise_append.mp apart).2.2 t.path (List.mem_map_of_mem ht) path List.mem_cons_self
    have rest := ih (done ++ [s]) (by simpa [s, analyzed] using apart)
    rw [Program.tables_concat new, List.append_assoc] at rest
    have found : (resourcesOf digest p.host fs path
        (properties (Syntax.read (.ofPath path) text).program)).run.value = .ok s.resources :=
      result_resourcesOf digest p.host fs path _
    rw [Tables.fill, Logged.value_bind, Logged.value_bind, found]
    exact rest

theorem log_analyzeSource (path : Path) (text : List Char) :
    (analyzeSource digest host fs path text).run.log =
      (warnOfProblems path (Syntax.read (.ofPath path) text).problems).log ++
        (resourcesOf digest host fs path
          (properties (Syntax.read (.ofPath path) text).program)).run.log := by
  rw [analyzeSource, Build.log_bind_of_ok (Build.result_ofLogged _),
    Build.log_bind_of_ok (result_resourcesOf digest host fs path _), Build.log_ofLogged]
  exact congrArg _ (List.append_nil _)

/-- Filling writes what the analysis of the texts writes, whatever the tables hold. -/
theorem log_fill (texts : List (Path × List Char)) (t : Tables) :
    (Tables.fill digest host fs texts t).log =
      (texts.mapM fun (path, text) => analyzeSource digest host fs path text).run.log := by
  induction texts generalizing t with
  | nil => rfl
  | cons r texts ih =>
    obtain ⟨path, text⟩ := r
    have found := result_resourcesOf digest host fs path
      (properties (Syntax.read (.ofPath path) text).program)
    rw [List.mapM_cons, Build.log_bind_of_ok (result_analyzeSource digest host fs path text),
      Build.log_bind_of_ok (result_analyzeTexts digest host fs texts), log_analyzeSource,
      Tables.fill, Logged.log_bind, Logged.log_bind]
    unfold Build.result at found
    simp only [found]
    rw [ih, List.append_assoc]
    exact congrArg _ (congrArg _ (List.append_nil _).symm)

/-- Clearing the tables and filling them root by root never fails, and comes to what the analysis
finds, with nothing left of what the tables held before. The same is written to the log. -/
theorem refill_of_distinct (distinct : p.roots.Pairwise fun a b => a.same b = false) (old : Tables) :
    ∃ q, Build.result (analyze digest p fs) = .ok q ∧
      (Tables.refill digest p.host fs p.roots old).value = (.ok (), q.tables) ∧
      (Tables.refill digest p.host fs p.roots old).log = (analyze digest p fs).run.log := by
  refine ⟨_, result_analyze digest fs p, ?_, ?_⟩
  · have apart : ((textsOf fs p.roots).map Prod.fst).Pairwise fun a b => a.same b = false := by
      refine List.pairwise_map.mpr (distinct.filterMap _ fun a b hab r hr r' hr' => ?_)
      obtain ⟨text, -, rfl⟩ := Option.map_eq_some_iff.mp hr
      obtain ⟨text', -, rfl⟩ := Option.map_eq_some_iff.mp hr'
      exact hab
    rw [Tables.refill, Logged.value_bind, value_readRoots, sourcesOf_eq_map]
    exact fill_eq [] apart
  · have sources := result_analyzeRoots digest p.host fs p.roots
    rw [analyze, Build.log_bind_of_ok sources, analyzeRoots,
      Build.log_bind_of_ok (Build.result_ofLogged _), Build.log_ofLogged, Tables.refill,
      Logged.log_bind, log_fill]
    exact (List.append_nil _).symm

end

section

variable {α : Type} {ss : List Source} {path : Path}

/-- Behind a source at a place there is no other one at it. -/
theorem find?_behind {s : Source}
    (apart : (s :: ss).Pairwise fun s t => s.path.same t.path = false)
    (same : s.path.same path = true) : ss.find? (fun t => t.path.same path) = none := by
  refine List.find?_eq_none.mpr fun t ht same' => ?_
  have := Path.same_trans same (by rwa [Path.same_comm])
  simp [List.rel_of_pairwise_cons apart ht] at this

theorem find?_reverse_of_apart (apart : ss.Pairwise fun s t => s.path.same t.path = false) :
    ss.reverse.find? (fun s => s.path.same path) = ss.find? fun s => s.path.same path := by
  induction ss with
  | nil => rfl
  | cons s ss ih =>
    rw [List.reverse_cons, List.find?_append, ih apart.of_cons, List.find?_cons]
    cases same : s.path.same path with
    | false => simp [same]
    | true => simp [same, find?_behind apart same]

theorem find?_filterMap_of_apart {f : Source → Option α}
    (apart : ss.Pairwise fun s t => s.path.same t.path = false) :
    Table.find? (ss.filterMap fun s => (f s).map (s.path, ·)) path =
      (ss.find? fun s => s.path.same path).bind f := by
  induction ss with
  | nil => rfl
  | cons s ss ih =>
    have rest := ih apart.of_cons
    rw [List.find?_cons]
    cases same : s.path.same path with
    | false =>
      rw [← rest]
      cases hf : f s with
      | none => simp [hf]
      | some a => simp [hf, Table.find?, same]
    | true =>
      rw [find?_behind apart same] at rest
      cases hf : f s with
      | none => simp [hf, rest]
      | some a => simp [hf, Table.find?, same]

/-- Under each path the tables have what the source for the path says. -/
theorem find?_tables {p : Program}
    (apart : p.sources.Pairwise fun s t => s.path.same t.path = false) (path : Path) :
    p.tables.texts.find? path = (p.source? path).map Source.text ∧
    (∀ parts, p.tables.components.find? path = some parts ↔
      ∃ s, p.source? path = some s ∧ s.resources = .inlined parts) ∧
    ∀ file, p.tables.missing.find? path = some file ↔
      ∃ s, p.source? path = some s ∧ s.resources = .missing file := by
  have htexts : p.tables.texts = p.sources.filterMap fun s => (some s.text).map (s.path, ·) :=
    (congrFun List.filterMap_eq_map p.sources).symm
  have hcomponents : p.tables.components =
      p.sources.filterMap fun s => s.inlined?.map (s.path, ·) := by
    refine List.filterMap_congr fun s _ => ?_
    cases hs : s.resources <;> simp [Source.inlined?, hs]
  have hmissing : p.tables.missing = p.sources.filterMap fun s => s.missing?.map (s.path, ·) := by
    refine List.filterMap_congr fun s _ => ?_
    cases hs : s.resources <;> simp [Source.missing?, hs]
  rw [htexts, hcomponents, hmissing, Program.source?, find?_reverse_of_apart apart]
  simp only [find?_filterMap_of_apart apart, Option.bind_eq_some_iff]
  refine ⟨Option.map_eq_bind.symm, fun parts => ?_, fun file => ?_⟩
  · refine exists_congr fun s => and_congr_right fun _ => ?_
    cases hs : s.resources <;> simp [Source.inlined?, hs]
  · refine exists_congr fun s => and_congr_right fun _ => ?_
    cases hs : s.resources <;> simp [Source.missing?, hs]

end

end LiveLoader.PlainCompiler
