import LiveLoader.Logged

/-!
# Results of builds

What a build comes to does not depend on what it writes: its result is put together as the results
of its parts are.
-/

namespace LiveLoader

theorem bind_eq_ok {x : Except ε α} {f : α → Except ε β} {b : β} :
    x >>= f = .ok b ↔ ∃ a, x = .ok a ∧ f a = .ok b := by
  cases x with
  | error e => simp [bind, Except.bind]
  | ok a => simp [bind, Except.bind]

theorem bind_eq_error {x : Except ε α} {f : α → Except ε β} {e : ε} :
    x >>= f = .error e ↔ x = .error e ∨ ∃ a, x = .ok a ∧ f a = .error e := by
  cases x with
  | error e' => simp [bind, Except.bind]
  | ok a => simp [bind, Except.bind]

theorem map_eq_ok {x : Except ε α} {f : α → β} {b : β} :
    f <$> x = .ok b ↔ ∃ a, x = .ok a ∧ f a = b := by
  cases x with
  | error e => simp [Functor.map, Except.map]
  | ok a => simp [Functor.map, Except.map]

theorem toOption_eq_some {x : Except ε α} {a : α} : x.toOption = some a ↔ x = .ok a := by
  cases x <;> simp [Except.toOption]

theorem mapError_eq_ok {x : Except ε α} {f : ε → ε'} {a : α} :
    x.mapError f = .ok a ↔ x = .ok a := by
  cases x with
  | error e => exact ⟨nofun, nofun⟩
  | ok b => exact ⟨fun h => congrArg _ (Except.ok.inj h), fun h => congrArg _ (Except.ok.inj h)⟩

theorem mapError_eq_error {x : Except ε α} {f : ε → ε'} {e : ε'} :
    x.mapError f = .error e ↔ ∃ e', x = .error e' ∧ f e' = e := by
  cases x with
  | error e' =>
    constructor
    · intro h
      exact ⟨e', rfl, Except.error.inj h⟩
    · rintro ⟨e'', h, rfl⟩
      rw [Except.error.inj h]
      rfl
  | ok a =>
    constructor
    · intro h
      cases h
    · rintro ⟨e'', h, -⟩
      cases h

theorem mapM_cons_eq_ok {f : α → Except ε β} {a : α} {as : List α} {bs : List β} :
    (a :: as).mapM f = .ok bs ↔ ∃ b cs, f a = .ok b ∧ as.mapM f = .ok cs ∧ bs = b :: cs := by
  rw [List.mapM_cons, bind_eq_ok]
  refine exists_congr fun b => ?_
  rw [bind_eq_ok]
  simp only [pure, Except.pure, Except.ok.injEq, eq_comm (a := bs), exists_and_left]

theorem exists_of_mem_mapM {f : α → Except ε β} {as : List α} {bs : List β}
    (h : as.mapM f = .ok bs) {b : β} (hb : b ∈ bs) : ∃ a ∈ as, f a = .ok b := by
  induction as generalizing bs with
  | nil =>
    cases h
    simp at hb
  | cons a as ih =>
    obtain ⟨c, cs, hc, hcs, rfl⟩ := mapM_cons_eq_ok.mp h
    rcases List.mem_cons.mp hb with rfl | hb
    · exact ⟨a, List.mem_cons_self, hc⟩
    · obtain ⟨a', ha', h'⟩ := ih hcs hb
      exact ⟨a', List.mem_cons_of_mem a ha', h'⟩

/-- A function that gives the results of a traversal gives the same traversal. -/
theorem mapM_of_mapM {f g : α → Except ε β} {as : List α} {bs : List β} (h : as.mapM f = .ok bs)
    (hg : ∀ a ∈ as, ∀ b ∈ bs, f a = .ok b → g a = .ok b) : as.mapM g = .ok bs := by
  induction as generalizing bs with
  | nil => exact h
  | cons a as ih =>
    obtain ⟨b, cs, hb, hcs, rfl⟩ := mapM_cons_eq_ok.mp h
    refine mapM_cons_eq_ok.mpr ⟨b, cs, hg a List.mem_cons_self b List.mem_cons_self hb, ?_, rfl⟩
    exact ih hcs fun a' ha' b' hb' =>
      hg a' (List.mem_cons_of_mem a ha') b' (List.mem_cons_of_mem b hb')

/-- What is seen of the results of a traversal can be seen of what was traversed. -/
theorem map_eq_of_mapM {f : α → Except ε β} {k : β → γ} {g : α → γ} {as : List α} {bs : List β}
    (h : as.mapM f = .ok bs) (hf : ∀ a b, f a = .ok b → k b = g a) : bs.map k = as.map g := by
  induction as generalizing bs with
  | nil =>
    cases h
    rfl
  | cons a as ih =>
    obtain ⟨b, cs, hb, hcs, rfl⟩ := mapM_cons_eq_ok.mp h
    rw [List.map_cons, List.map_cons, hf a b hb, ih hcs]

theorem mapM_eq_map {f : α → Except ε β} {g : α → β} (h : ∀ a, f a = .ok (g a)) (as : List α) :
    as.mapM f = .ok (as.map g) := by
  induction as with
  | nil => rfl
  | cons a as ih => exact mapM_cons_eq_ok.mpr ⟨g a, as.map g, h a, ih, rfl⟩

/-- What a result failed with. -/
def failure? : Except ε α → Option ε
  | .error e => some e
  | .ok _ => none

theorem failure?_eq_some {x : Except ε α} {e : ε} : failure? x = some e ↔ x = .error e := by
  cases x <;> simp [failure?]

theorem failure?_eq_none {x : Except ε α} : failure? x = none ↔ ∃ a, x = .ok a := by
  cases x <;> simp [failure?]

theorem failure?_bind {x : Except ε α} {f : α → Except ε β} (h : ∀ a, ∃ b, f a = .ok b) :
    failure? (x >>= f) = failure? x := by
  cases x with
  | error e => rfl
  | ok a => exact failure?_eq_none.mpr (h a)

/-- A traversal fails as the first of its steps that does. -/
theorem failure?_mapM (f : α → Except ε β) (as : List α) :
    failure? (as.mapM f) = as.findSome? fun a => failure? (f a) := by
  induction as with
  | nil => rfl
  | cons a as ih =>
    rw [List.mapM_cons, List.findSome?_cons]
    cases f a with
    | error e => rfl
    | ok b => exact (failure?_bind fun _ => ⟨_, rfl⟩).trans ih

namespace Build

/-- What a build comes to. -/
def result (x : Build α) : Result α := x.run.value

@[simp] theorem result_pure (a : α) : result (pure a) = .ok a := rfl

@[simp] theorem result_bind (x : Build α) (f : α → Build β) :
    result (x >>= f) = result x >>= fun a => result (f a) := by
  show (ExceptT.bindCont f x.run.value : Logged (Except BuildError β)).value = _
  unfold result
  cases x.run.value <;> rfl

@[simp] theorem result_map (f : α → β) (x : Build α) : result (f <$> x) = f <$> result x := by
  obtain ⟨⟨r, log⟩, rfl⟩ : ∃ y : Logged (Except BuildError α), x = ExceptT.mk y := ⟨x, rfl⟩
  cases r <;> rfl

@[simp] theorem result_mk (x : Logged (Except BuildError α)) : result (ExceptT.mk x) = x.value :=
  rfl

@[simp] theorem result_ofResult (r : Result α) : result (ofResult r) = r := rfl

@[simp] theorem result_ofLogged (x : Logged α) : result (ofLogged x) = .ok x.value := rfl

@[simp] theorem result_mapM (f : α → Build β) (as : List α) :
    result (as.mapM f) = as.mapM fun a => result (f a) := by
  induction as with
  | nil => rfl
  | cons a as ih => simp only [List.mapM_cons, result_bind, result_pure, ih]; rfl

/-- After a step that succeeds the log goes on with that of the rest. -/
theorem log_bind_of_ok {x : Build α} {a : α} (h : result x = .ok a) (f : α → Build β) :
    (x >>= f).run.log = x.run.log ++ (f a).run.log := by
  show (x.run >>= ExceptT.bindCont f).log = _
  unfold result at h
  rw [Logged.log_bind, h]
  rfl

theorem log_ofLogged (x : Logged α) : (ofLogged x).run.log = x.log := List.append_nil x.log

end Build

end LiveLoader
