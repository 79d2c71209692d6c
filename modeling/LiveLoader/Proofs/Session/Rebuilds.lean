import LiveLoader.Proofs.Session.Texts
import Mathlib.Data.List.Induction

/-!
# How often the program is made anew

When programs can always be made and no input ever changes, a session makes its program anew for the
calls that need it and for no others: those for a place that no call before asked for, and those that
give a known place another text than the last one. `rebuilds_of_calls` counts them.
-/

namespace LiveLoader.Session

/-- Some call asked for the place of a path. -/
def asksFor (ks : List (Call σ)) (path : Path) : Bool :=
  (ks.filterMap Call.root?).any (·.same path)

/-- The text that calls gave last for a place. -/
def lastText? (ks : List (Call σ)) (path : Path) : Option (List Char) :=
  ks.reverse.findSome? (·.textFor? path)

/-- The call asks for a place that none of the calls before it asked for. -/
def isNew (before : List (Call σ)) (k : Call σ) : Bool :=
  k.root?.any fun path => !asksFor before path

/-- The call gives a place that was asked for before another text than the last one given for it, or
the first one. -/
def isEdit (before : List (Call σ)) (k : Call σ) : Bool :=
  match k.request with
  | .ensureCurrent path text => asksFor before path && decide (lastText? before path ≠ some text)
  | _ => false

/-- How many calls are of a kind, each seen with those before it. -/
def tally (kind : List (Call σ) → Call σ → Bool) (ks : List (Call σ)) : Nat :=
  ks.zipIdx.countP fun (k, i) => kind (ks.take i) k

/-- Programs can always be made, and no input that they read ever changes. -/
structure Steady (c : Compiler σ Program) (options : CompilerOptions) (host : ResourceHost) :
    Prop where
  makes : ∀ w roots, ∃ program, Makes c w roots options host program
  unchanged : ∀ program w, (c.inputsChanged program w).1 = false

/-- No two texts that calls give for one place have the same digest. -/
def TellsApart (c : Compiler σ Program) (ks : List (Call σ)) : Prop :=
  ∀ j ∈ ks, ∀ k ∈ ks, ∀ path t u, j.textFor? path = some t → k.textFor? path = some u →
    c.digest t = c.digest u → t = u

/-- What a session knows after calls that all went well. -/
structure Tracks (c : Compiler σ Program) (ks : List (Call σ)) (s : Session Program) : Prop where
  fresh : s.stale = false
  known : ∀ p, s.knows p = asksFor ks p
  digests : ∀ p, s.digest? p = (lastText? ks p).map c.digest
  counted : s.rebuilds = tally isNew ks + tally isEdit ks

section

variable (ks : List (Call σ)) (k : Call σ)

@[simp] theorem asksFor_concat (q : Path) :
    asksFor (ks ++ [k]) q = (asksFor ks q || k.root?.any (·.same q)) := by
  unfold asksFor
  rw [List.filterMap_append, List.any_append, List.filterMap_cons]
  cases k.root? <;> simp

@[simp] theorem lastText?_concat (q : Path) :
    lastText? (ks ++ [k]) q = (k.textFor? q).or (lastText? ks q) := by
  unfold lastText?
  rw [List.reverse_append, List.reverse_singleton, List.singleton_append, List.findSome?_cons]
  cases k.textFor? q <;> rfl

@[simp] theorem tally_nil (kind : List (Call σ) → Call σ → Bool) : tally kind [] = 0 := rfl

@[simp] theorem tally_concat (kind : List (Call σ) → Call σ → Bool) :
    tally kind (ks ++ [k]) = tally kind ks + if kind ks k then 1 else 0 := by
  unfold tally
  rw [List.zipIdx_append, List.countP_append]
  congr 1
  · refine List.countP_congr fun ⟨j, i⟩ h => ?_
    have hi : i < ks.length := by simpa using List.snd_lt_of_mem_zipIdx h
    simp only [List.take_append_of_le_length (Nat.le_of_lt hi)]
  · simp [List.countP_cons]

end

theorem mem_of_lastText? {ks : List (Call σ)} {path : Path} {t : List Char}
    (h : lastText? ks path = some t) : ∃ k ∈ ks, k.textFor? path = some t := by
  obtain ⟨k, hk, ht⟩ := List.exists_of_findSome?_eq_some h
  exact ⟨k, List.mem_reverse.mp hk, ht⟩

section

variable {c : Compiler σ Program} {s : Session Program}

/-- If programs can be made and inputs do not change, a path is ensured by making the program anew
just if the path is not known or the session is stale. -/
theorem ensure_result (steady : Steady c s.options s.host) (path : Path) (w : World σ) :
    (ensure c s path w).1 = .ok (!s.knows path || s.stale) := by
  have hrenew (v : World σ) : (renew c s path v).1 = .ok true := by
    obtain ⟨program, v', built⟩ := steady.makes v (s.addRoot path).roots
    rw [renew_result, built]
    rfl
  have hinputs := steady.unchanged s.program w
  unfold ensure
  cases s.knows path <;> cases s.stale
  case true.false =>
    rcases hc : c.inputsChanged s.program w with ⟨changed, v⟩
    rw [hc] at hinputs
    cases hinputs
    rfl
  all_goals exact hrenew w

/-- A call finds its place unknown or the session stale just if it is one of those that count. -/
theorem Tracks.due_eq {ks : List (Call σ)} (h : Tracks c ks s) {k : Call σ}
    (apart : TellsApart c (ks ++ [k])) {path : Path} (asked : k.root? = some path) :
    (!s.knows path || (noted c s k).stale) = (isNew ks k || isEdit ks k) := by
  rcases k with ⟨request, w⟩
  cases request with
  | emit p => cases asked
  | ensure p =>
    cases asked
    simp [noted, isNew, isEdit, Call.root?, h.fresh, h.known]
  | ensureCurrent p text =>
    obtain rfl : p = path := Option.some.inj asked
    have hchanged : s.digest? p ≠ some (c.digest text) ↔ lastText? ks p ≠ some text := by
      rw [h.digests]
      cases hlast : lastText? ks p with
      | none => simp
      | some t =>
        obtain ⟨j, hj, ht⟩ := mem_of_lastText? hlast
        have hsame : c.digest t = c.digest text ↔ t = text :=
          ⟨apart j (List.mem_append_left _ hj) _ (List.mem_append_right _ (List.mem_singleton_self _))
            p t text ht (by simp [Call.textFor?]), congrArg c.digest⟩
        simp [hsame]
    simp only [noted, noteText_eq, isNew, isEdit, Call.root?, h.fresh, h.known, Option.any_some,
      Bool.false_or]
    rw [decide_eq_decide.mpr hchanged]

theorem Tracks.reply_eq {ks : List (Call σ)} (h : Tracks c ks s)
    (steady : Steady c s.options s.host) {k : Call σ} (apart : TellsApart c (ks ++ [k]))
    {path : Path} (asked : k.root? = some path) :
    reply c s k = .ensured (.ok (isNew ks k || isEdit ks k)) := by
  rw [reply_of_root? c s asked, ensure_result (by simpa using steady), noted_knows,
    h.due_eq apart asked]

theorem Tracks.after {ks : List (Call σ)} (h : Tracks c ks s)
    (steady : Steady c s.options s.host) {k : Call σ} (apart : TellsApart c (ks ++ [k])) :
    Tracks c (ks ++ [k]) (after c s k) := by
  have hfresh : (Session.after c s k).stale = false ∧
      (Session.after c s k).rebuilds = s.rebuilds + if isNew ks k || isEdit ks k then 1 else 0 := by
    cases asked : k.root? with
    | none =>
      rcases k with ⟨request, w⟩
      cases request with
      | ensure p | ensureCurrent p text => cases asked
      | emit p => exact ⟨h.fresh, rfl⟩
    | some path =>
      have hreply := h.reply_eq steady apart asked
      refine ⟨fresh_of_ensured c hreply, ?_⟩
      rcases program_after c s k with ⟨installed, -, -, hr⟩ | ⟨kept, -, -, hr, -⟩
      · rw [Installs, hreply] at installed
        simp_all
      · rw [Installs, hreply] at kept
        simp_all
  refine ⟨hfresh.1, fun q => ?_, fun q => ?_, ?_⟩
  · rw [knows_after_eq, asksFor_concat, h.known]
  · rw [digest?_after_eq, lastText?_concat, h.digests]
    cases k.textFor? q <;> rfl
  · rw [hfresh.2, h.counted, tally_concat, tally_concat]
    have hexclusive : ¬ (isNew ks k = true ∧ isEdit ks k = true) := by
      rintro ⟨hnew, hedit⟩
      rcases k with ⟨request, w⟩
      cases request <;> simp_all [isNew, isEdit, Call.root?]
    cases hnew : isNew ks k <;> cases hedit : isEdit ks k <;> simp_all <;> omega

end

/-- A session over a compiler whose programs can always be made and whose inputs never change, after
any calls: the program was made anew once for each call that asked for a new place, and once for each
call that gave a known place another text than the one before, or its first one; and each call to
ensure a path tells just that. -/
theorem rebuilds_of_calls (c : Compiler σ Program) {options : CompilerOptions}
    {host : ResourceHost} {w w' : World σ} {s₀ : Session Program}
    (started : start c options host w = (.ok s₀, w'))
    (steady : Steady c options host) (ks : List (Call σ)) (apart : TellsApart c ks) :
    (afterAll c s₀ ks).rebuilds = tally isNew ks + tally isEdit ks ∧
      ∀ js k is, ks = js ++ k :: is → ∀ path, k.root? = some path →
        reply c (afterAll c s₀ js) k = .ensured (.ok (isNew js k || isEdit js k)) := by
  have hsub {js : List (Call σ)} (hjs : js ⊆ ks) : TellsApart c js :=
    fun j hj k hk => apart j (hjs hj) k (hjs hk)
  have hsteady (js : List (Call σ)) :
      Steady c (afterAll c s₀ js).options (afterAll c s₀ js).host := by
    have hc := Consistent.of_calls started js
    rw [hc.options_eq, hc.host_eq]
    exact steady
  have htracks (js : List (Call σ)) (hjs : js ⊆ ks) : Tracks c js (afterAll c s₀ js) := by
    induction js using List.reverseRecOn with
    | nil =>
      obtain ⟨program, rfl, -⟩ := start_eq started
      exact ⟨rfl, fun _ => rfl, fun _ => rfl, rfl⟩
    | append_singleton js k ih =>
      rw [afterAll_concat]
      exact (ih fun j hj => hjs (List.mem_append_left _ hj)).after (hsteady js) (hsub hjs)
  refine ⟨(htracks ks (List.Subset.refl ks)).counted, ?_⟩
  rintro js k is rfl path asked
  have hjs : js ++ [k] ⊆ js ++ k :: is := by simp
  exact (htracks js (List.subset_append_left js _)).reply_eq (hsteady js) (hsub hjs) asked

namespace Trial

/-- Programs can be made of any roots. -/
def sound : Compiler Nat Scripted.Program := Scripted.Script.compiler {}

def soundSession : Session Scripted.Program :=
  { options := .standard, host, program := ⟨[], [], false⟩ }

/-- Two places, of which the first is given its first text, the same again, and another one. -/
def mixedCalls : List (Call Nat) :=
  [⟨.ensure "/app/a.ts", world⟩, ⟨.ensureCurrent "/app/a.ts" "x".toList, world⟩,
    ⟨.ensureCurrent "/app/./a.ts" "x".toList, world⟩,
    ⟨.ensureCurrent "/app/b.ts" "x".toList, world⟩, ⟨.ensure "/app/b.ts", world⟩,
    ⟨.ensureCurrent "/app/a.ts" "y".toList, world⟩]

end Trial

theorem rebuilds_of_calls_trial :
    (afterAll Trial.sound Trial.soundSession Trial.mixedCalls).rebuilds = 4 ∧
      reply Trial.sound
        (afterAll Trial.sound Trial.soundSession (Trial.mixedCalls.take 2))
        ⟨.ensureCurrent "/app/./a.ts" "x".toList, Trial.world⟩ = .ensured (.ok false) := by
  have hstart : start Trial.sound .standard Trial.host Trial.world =
      (.ok Trial.soundSession, { Trial.world with state := 1 }) := rfl
  have hsteady : Steady Trial.sound .standard Trial.host :=
    ⟨fun _ _ => ⟨_, _, rfl⟩, fun _ _ => rfl⟩
  have htexts : ∀ k ∈ Trial.mixedCalls, ∀ path t, k.textFor? path = some t →
      t = "x".toList ∨ t = "y".toList := by
    intro k hk path t ht
    simp only [Trial.mixedCalls, List.mem_cons, List.not_mem_nil, or_false] at hk
    rcases hk with rfl | rfl | rfl | rfl | rfl | rfl <;> simp_all [Call.textFor?]
  have hapart : TellsApart Trial.sound Trial.mixedCalls := by
    have differ : Trial.sound.digest "x".toList ≠ Trial.sound.digest "y".toList := by
      decide +kernel
    intro j hj k hk path t u ht hu heq
    rcases htexts j hj path t ht with rfl | rfl <;> rcases htexts k hk path u hu with rfl | rfl
    · rfl
    · exact absurd heq differ
    · exact absurd heq.symm differ
    · rfl
  obtain ⟨counted, replies⟩ :=
    rebuilds_of_calls Trial.sound hstart hsteady Trial.mixedCalls hapart
  have hthird := replies (Trial.mixedCalls.take 2) _ _ rfl "/app/./a.ts" rfl
  exact ⟨counted.trans (by decide), hthird⟩

end LiveLoader.Session
