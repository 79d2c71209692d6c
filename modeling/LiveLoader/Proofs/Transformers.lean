import LiveLoader.Proofs.Build
import LiveLoader.Scripted

/-!
# Runs of transformers

A run calls its transformers one after another, each with what the one before it gave, and ends with
the first that fails. So a merged set runs the transformers of both sets in order, in each phase by
itself, and what a session emits went through the compiler's own transformers before the started
application is kept.
-/

namespace LiveLoader

namespace Transformer

variable {path : Path} {text : List Char}

/-- The calls that a run makes, in order: the transformer and the text that it is given. -/
def calls : List Transformer → Path → List Char → List (Transformer × List Char)
  | [], _, _ => []
  | t :: ts, path, text =>
    (t, text) :: match t.apply path text with
      | .ok out => calls ts path out
      | .error _ => []

/-- The calls of a run that goes on where another one ended, if that one went well. -/
def callsAfter (r : Result (List Char)) (ts : List Transformer) (path : Path) :
    List (Transformer × List Char) :=
  match r with
  | .ok out => calls ts path out
  | .error _ => []

theorem applyAll_cons (t : Transformer) (ts : List Transformer) (path : Path) (text : List Char) :
    applyAll (t :: ts) path text = t.apply path text >>= applyAll ts path := rfl

theorem calls_cons (t : Transformer) (ts : List Transformer) (path : Path) (text : List Char) :
    calls (t :: ts) path text = (t, text) :: callsAfter (t.apply path text) ts path := rfl

theorem calls_append (ts us : List Transformer) (path : Path) (text : List Char) :
    calls (ts ++ us) path text =
      calls ts path text ++ callsAfter (applyAll ts path text) us path := by
  induction ts generalizing text with
  | nil => rfl
  | cons t ts ih =>
    rw [List.cons_append, calls_cons, calls_cons, applyAll_cons]
    cases t.apply path text with
    | error e => rfl
    | ok out => exact congrArg _ (ih out)

/-- The answer of a run is that of its last call. -/
theorem applyAll_eq_last_call (ts : List Transformer) (path : Path) (text : List Char) :
    applyAll ts path text =
      ((calls ts path text).getLast?.map fun (t, given) => t.apply path given).getD (.ok text) := by
  induction ts generalizing text with
  | nil => rfl
  | cons t ts ih =>
    rw [applyAll_cons, calls_cons, List.getLast?_cons]
    cases happly : t.apply path text with
    | error e => exact happly.symm
    | ok out =>
      show applyAll ts path out = _
      rw [ih out, callsAfter]
      cases (calls ts path out).getLast? with
      | none => exact happly.symm
      | some last => rfl

/-- A run that goes well calls all transformers. -/
theorem map_fst_calls {ts : List Transformer} {out : List Char}
    (h : applyAll ts path text = .ok out) : (calls ts path text).map Prod.fst = ts := by
  induction ts generalizing text with
  | nil => rfl
  | cons t ts ih =>
    rw [applyAll_cons] at h
    obtain ⟨given, hgiven, hrest⟩ := bind_eq_ok.mp h
    rw [calls_cons, hgiven, List.map_cons]
    exact congrArg _ (ih hrest)

/-- A run fails exactly with the first transformer that does, and that one is the last called. -/
theorem applyAll_eq_error_iff {ts : List Transformer} {e : BuildError} :
    applyAll ts path text = .error e ↔ ∃ ran t rest given, ts = ran ++ t :: rest ∧
      applyAll ran path text = .ok given ∧ t.apply path given = .error e ∧
      (calls ts path text).map Prod.fst = ran ++ [t] := by
  constructor
  · intro h
    induction ts generalizing text with
    | nil => cases h
    | cons t ts ih =>
      rw [applyAll_cons] at h
      rcases bind_eq_error.mp h with hfail | ⟨out, hout, hrest⟩
      · exact ⟨[], t, ts, text, rfl, rfl, hfail, by rw [calls_cons, hfail]; rfl⟩
      · obtain ⟨ran, u, rest, given, rfl, hran, hfail, hcalls⟩ := ih hrest
        refine ⟨t :: ran, u, rest, given, rfl, ?_, hfail, ?_⟩
        · rw [applyAll_cons, hout]
          exact hran
        · rw [calls_cons, hout, List.map_cons]
          exact congrArg _ hcalls
  · rintro ⟨ran, t, rest, given, rfl, hran, hfail, -⟩
    rw [applyAll_append, hran]
    show applyAll (t :: rest) path given = _
    rw [applyAll_cons]
    exact bind_eq_error.mpr (.inl hfail)

end Transformer

namespace Transformers

open Transformer

/-- A list of transformers runs those of two others in order: all of the first, then those of the
second if none of the first failed. Its answer is that of the last call. If it goes well, all are
called; its failure is that of the first transformer that fails, behind which none is called. -/
structure RunsInOrder (first second both : List Transformer) (path : Path) (text : List Char) :
    Prop where
  called : calls both path text =
    calls first path text ++ callsAfter (applyAll first path text) second path
  answered : applyAll both path text =
    ((calls both path text).getLast?.map fun (t, given) => t.apply path given).getD (.ok text)
  completed : ∀ out, applyAll both path text = .ok out →
    (calls both path text).map Prod.fst = both
  failed : ∀ e, applyAll both path text = .error e ↔ ∃ ran t rest given,
    both = ran ++ t :: rest ∧ applyAll ran path text = .ok given ∧ t.apply path given = .error e ∧
      (calls both path text).map Prod.fst = ran ++ [t]

theorem runsInOrder_append (first second : List Transformer) (path : Path) (text : List Char) :
    RunsInOrder first second (first ++ second) path text where
  called := calls_append first second path text
  answered := applyAll_eq_last_call (first ++ second) path text
  completed _ := map_fst_calls
  failed _ := applyAll_eq_error_iff

theorem merge_assoc (a b c : Transformers) : (a.merge b).merge c = a.merge (b.merge c) := by
  simp [merge]

@[simp] theorem merge_empty (a : Transformers) : a.merge {} = a := by simp [merge]

@[simp] theorem empty_merge (a : Transformers) : ({} : Transformers).merge a = a := by simp [merge]

theorem applyBefore_merge (a b : Transformers) (path : Path) (text : List Char) :
    (a.merge b).applyBefore path text = a.applyBefore path text >>= b.applyBefore path :=
  applyAll_append a.before b.before path text

theorem applyAfter_merge (a b : Transformers) (path : Path) (text : List Char) :
    (a.merge b).applyAfter path text = a.applyAfter path text >>= b.applyAfter path :=
  applyAll_append a.after b.after path text

end Transformers

namespace Session

open Transformer

variable (k : Compiler σ Program) (s : Session Program) (path : Path) (text : List Char)

theorem applyBefore_emitTransformers :
    (s.emitTransformers k).applyBefore path text =
      (k.prepareEmit s.program).applyBefore path text >>= Bootstrap.rewrite path := by
  have hrewrite : Transformers.applyBefore { before := [.bootstrap] } path =
      Bootstrap.rewrite path := funext fun _ => bind_pure _
  rw [emitTransformers, Transformers.applyBefore_merge, hrewrite]

theorem applyAfter_emitTransformers :
    (s.emitTransformers k).applyAfter path text =
      (k.prepareEmit s.program).applyAfter path text := by
  rw [emitTransformers, Transformers.applyAfter_merge]
  exact bind_pure _

theorem calls_emitTransformers :
    calls (s.emitTransformers k).before path text =
      calls (k.prepareEmit s.program).before path text ++
        callsAfter ((k.prepareEmit s.program).applyBefore path text) [.bootstrap] path :=
  calls_append _ _ _ _

/-- A failure of the compiler's emit is one of the session's. -/
theorem emit_eq_error {e : BuildError} (known : k.contains s.program path = true)
    (failed : k.emit s.program path (s.emitTransformers k) = .error e) :
    s.emit k path = .error e := by
  rw [emit, known, failed]
  rfl

end Session

namespace Transformers

open Transformer

/-- In each phase a merged set runs the transformers of both sets in order: the second run gets what
the first one gave, and the first failure ends both. The phases do not see each other, and merging
is associative with the empty set as its unit. So whatever compiler a session has, what it emits
goes through the compiler's own transformers first and then through the rewriter that keeps the
started application; the rewriter is called with what they gave, if none of them failed. -/
theorem merge_runs_in_order (a b c : Transformers) (path : Path) (text : List Char)
    (k : Compiler σ Program) (s : Session Program) :
    let ab := a.merge b
    let own := k.prepareEmit s.program
    let handed := s.emitTransformers k
    (ab.applyBefore path text = a.applyBefore path text >>= b.applyBefore path ∧
      RunsInOrder a.before b.before ab.before path text) ∧
    (ab.applyAfter path text = a.applyAfter path text >>= b.applyAfter path ∧
      RunsInOrder a.after b.after ab.after path text) ∧
    (∀ others others',
      (merge ⟨a.before, others⟩ ⟨b.before, others'⟩).applyBefore path text =
        ab.applyBefore path text ∧
      (merge ⟨others, a.after⟩ ⟨others', b.after⟩).applyAfter path text =
        ab.applyAfter path text) ∧
    (ab.merge c = a.merge (b.merge c) ∧ a.merge {} = a ∧ merge {} a = a) ∧
    (handed.applyBefore path text = own.applyBefore path text >>= Bootstrap.rewrite path ∧
      calls handed.before path text = calls own.before path text ++
        callsAfter (own.applyBefore path text) [.bootstrap] path ∧
      handed.applyAfter path text = own.applyAfter path text) ∧
    (k.contains s.program path = true →
      ∀ goOn : Transformers → List Char → Result (List Artifact),
      (∀ ts, k.emit s.program path ts = ts.applyBefore path text >>= goOn ts) →
        k.emit s.program path handed =
          (own.applyBefore path text >>= fun given =>
            Bootstrap.rewrite path given >>= goOn handed) ∧
        (∀ e, own.applyBefore path text = .error e → s.emit k path = .error e) ∧
        (∀ given e, own.applyBefore path text = .ok given → Bootstrap.rewrite path given = .error e →
          s.emit k path = .error e)) := by
  intro ab own handed
  refine ⟨⟨applyBefore_merge a b path text, runsInOrder_append a.before b.before path text⟩,
    ⟨applyAfter_merge a b path text, runsInOrder_append a.after b.after path text⟩,
    fun _ _ => ⟨rfl, rfl⟩, ⟨merge_assoc a b c, merge_empty a, empty_merge a⟩,
    ⟨Session.applyBefore_emitTransformers k s path text,
      Session.calls_emitTransformers k s path text,
      Session.applyAfter_emitTransformers k s path text⟩, ?_⟩
  intro known goOn runs
  have emitted : k.emit s.program path handed =
      own.applyBefore path text >>= fun given => Bootstrap.rewrite path given >>= goOn handed := by
    rw [runs, Session.applyBefore_emitTransformers, bind_assoc]
  refine ⟨emitted, fun e failed => Session.emit_eq_error k s path known ?_,
    fun given e well failed => Session.emit_eq_error k s path known ?_⟩
  · exact emitted.trans (bind_eq_error.mpr (.inl failed))
  · exact emitted.trans
      (bind_eq_error.mpr (.inr ⟨given, well, bind_eq_error.mpr (.inl failed)⟩))

namespace Trial

open Scripted

/-- A compiler whose own transformers mark the text and then fail. -/
def failing : Script where
  transformers := { before := [transformer "suffix:!".toList, transformer "fail:stop".toList] }
  artifacts := [("/a.ts", some ⟨"a.js".toList, "bootstrap();".toList⟩)]

def session : Session Scripted.Program where
  options := .standard
  host := ⟨none, .unchanged⟩
  program := ⟨["/a.ts"], [], false⟩

/-- What the compiler does with a text that went through the first phase. -/
def goOn (ts : Transformers) (given : List Char) : Result (List Artifact) :=
  ts.applyAfter "/a.ts" given >>= fun out => pure [⟨"a.js".toList, out⟩]

theorem emit_failing (ts : Transformers) : failing.compiler.emit session.program "/a.ts" ts =
    ts.applyBefore "/a.ts" "bootstrap();".toList >>= goOn ts := by
  have artifacts : failing.artifactsFor session.program "/a.ts" =
      [⟨"a.js".toList, "bootstrap();".toList⟩] := by decide +kernel
  show failing.emit session.program "/a.ts" ts = _
  rw [Script.emit, artifacts, List.mapM_cons]
  simp only [List.mapM_nil, bind_assoc, pure_bind]
  rfl

end Trial

/-- The compiler's own second transformer fails, and the rewriter is not called. -/
theorem merge_runs_in_order_trial :
    (calls (Trial.session.emitTransformers Trial.failing.compiler).before "/a.ts"
      "bootstrap();".toList).map (fun call => call.1.name) = ["suffix", "fail"] ∧
    Trial.session.emit Trial.failing.compiler "/a.ts" =
      .error (.transformFailure "/a.ts" "stop") := by
  obtain ⟨-, -, -, -, ⟨-, called, -⟩, emitted⟩ := merge_runs_in_order {} {} {} "/a.ts"
    "bootstrap();".toList Trial.failing.compiler Trial.session
  constructor
  · rw [called]
    rfl
  · obtain ⟨-, failed, -⟩ := emitted (by decide +kernel) Trial.goOn Trial.emit_failing
    exact failed _ rfl

end Transformers

end LiveLoader
