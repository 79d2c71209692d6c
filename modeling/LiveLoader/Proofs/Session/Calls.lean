import LiveLoader.Scripted
import LiveLoader.Session

/-!
# Calls on a session

A session is asked to ensure a path, with its text or without, or to emit one. `Step` lists what a
call can do; whatever holds after a sequence of calls is derived from it. Every call is made in a
world of its own: files, log and the compiler's state may have changed since the call before.
-/

namespace LiveLoader.Session

inductive Request where
  | ensure (path : Path)
  | ensureCurrent (path : Path) (text : List Char)
  | emit (path : Path)
  deriving DecidableEq, Repr

structure Call (σ : Type) where
  request : Request
  world : World σ

/-- The path that a call asks to be a root. -/
def Call.root? (k : Call σ) : Option Path :=
  match k.request with
  | .ensure path => some path
  | .ensureCurrent path _ => some path
  | .emit _ => none

section

variable (c : Compiler σ Program)

def serve (s : Session Program) (k : Call σ) : Reply × Session Program × World σ :=
  match k.request with
  | .ensure path =>
    let (r, s, w) := ensure c s path k.world
    (.ensured r, s, w)
  | .ensureCurrent path text =>
    let (r, s, w) := ensureCurrent c s path text k.world
    (.ensured r, s, w)
  | .emit path => (.emitted (emit c s path), s, k.world)

def reply (s : Session Program) (k : Call σ) : Reply := (serve c s k).1

def after (s : Session Program) (k : Call σ) : Session Program := (serve c s k).2.1

def afterAll (s : Session Program) : List (Call σ) → Session Program
  | [] => s
  | k :: ks => afterAll (after c s k) ks

/-- The call tells that a new program was put in place. -/
def Installs (s : Session Program) (k : Call σ) : Prop := reply c s k = .ensured (.ok true)

/-- Some of the calls puts a new program in place. -/
def InstallsAmong (s : Session Program) : List (Call σ) → Prop
  | [] => False
  | k :: ks => Installs c s k ∨ InstallsAmong (after c s k) ks

/-- In the world `w` the compiler makes and analyzes this program over the roots. -/
def Makes (w : World σ) (roots : List Path) (options : CompilerOptions) (host : ResourceHost)
    (program : Program) : Prop :=
  ∃ w', build c roots options host w = (.ok program, w')

/-- The worlds in which a call can make a program: its own, and the one that is left when the
compiler was asked for changed inputs. -/
def BuildsIn (s : Session Program) (k : Call σ) (w : World σ) : Prop :=
  w = k.world ∨ w = (c.inputsChanged s.program k.world).2

/-- The session once it took note of the text that a call gives. -/
def noted (s : Session Program) (k : Call σ) : Session Program :=
  match k.request with
  | .ensureCurrent path text => noteText c s path text
  | _ => s

/-- What a call can do: nothing, leave a program that is up to date, fail to make a program, or put
one in place that was made over all roots. -/
inductive Step (s : Session Program) (k : Call σ) : Reply → Session Program → Prop
  | emit (path : Path) (asked : k.request = .emit path) :
      Step s k (.emitted (s.emit c path)) s
  | keep (path : Path) (asked : k.root? = some path) (known : s.knows path = true)
      (fresh : (noted c s k).stale = false)
      (unchanged : (c.inputsChanged s.program k.world).1 = false) :
      Step s k (.ensured (.ok false)) (noted c s k)
  | fail (path : Path) (asked : k.root? = some path) (e : BuildError) (w w' : World σ)
      (place : BuildsIn c s k w)
      (built : build c ((noted c s k).addRoot path).roots s.options s.host w = (.error e, w')) :
      Step s k (.ensured (.error e)) { (noted c s k).addRoot path with stale := true }
  | install (path : Path) (asked : k.root? = some path) (program : Program) (w : World σ)
      (place : BuildsIn c s k w)
      (made : Makes c w ((noted c s k).addRoot path).roots s.options s.host program) :
      Step s k (.ensured (.ok true)) (((noted c s k).addRoot path).install program)

@[simp] theorem afterAll_nil (s : Session Program) : afterAll c s [] = s := rfl
@[simp] theorem afterAll_cons (s : Session Program) (k : Call σ) (ks : List (Call σ)) :
    afterAll c s (k :: ks) = afterAll c (after c s k) ks := rfl

theorem afterAll_append (s : Session Program) (js ks : List (Call σ)) :
    afterAll c s (js ++ ks) = afterAll c (afterAll c s js) ks := by
  induction js generalizing s with
  | nil => rfl
  | cons j js ih => exact ih (after c s j)

theorem afterAll_concat (s : Session Program) (ks : List (Call σ)) (k : Call σ) :
    afterAll c s (ks ++ [k]) = after c (afterAll c s ks) k := afterAll_append c s ks [k]

/-- An invariant of single calls holds after any sequence of them. -/
theorem afterAll_induction {P : Session Program → Prop} {s : Session Program} (start : P s)
    (step : ∀ s k, P s → P (after c s k)) (ks : List (Call σ)) : P (afterAll c s ks) := by
  induction ks generalizing s with
  | nil => exact start
  | cons k ks ih => exact ih (step s k start)

theorem installsAmong_append (s : Session Program) (js ks : List (Call σ)) :
    InstallsAmong c s (js ++ ks) ↔
      InstallsAmong c s js ∨ InstallsAmong c (afterAll c s js) ks := by
  induction js generalizing s with
  | nil => simp [InstallsAmong]
  | cons j js ih => simp only [List.cons_append, InstallsAmong, ih, afterAll_cons, or_assoc]

end

section

variable {s : Session Program}

theorem knows_congr {p q : Path} (h : p.same q = true) : s.knows p = s.knows q := by
  unfold knows
  congr 1
  funext r
  rw [Bool.eq_iff_iff]
  exact ⟨fun k => Path.same_trans k h, fun k => Path.same_trans k (by rwa [Path.same_comm])⟩

@[simp] theorem addRoot_options (p : Path) : (s.addRoot p).options = s.options := by
  unfold addRoot; split <;> rfl
@[simp] theorem addRoot_host (p : Path) : (s.addRoot p).host = s.host := by
  unfold addRoot; split <;> rfl
@[simp] theorem addRoot_digests (p : Path) : (s.addRoot p).digests = s.digests := by
  unfold addRoot; split <;> rfl
@[simp] theorem addRoot_program (p : Path) : (s.addRoot p).program = s.program := by
  unfold addRoot; split <;> rfl
@[simp] theorem addRoot_version (p : Path) : (s.addRoot p).version = s.version := by
  unfold addRoot; split <;> rfl
@[simp] theorem addRoot_rebuilds (p : Path) : (s.addRoot p).rebuilds = s.rebuilds := by
  unfold addRoot; split <;> rfl

theorem addRoot_roots (p : Path) :
    (s.addRoot p).roots = if s.knows p then s.roots else s.roots ++ [p] := by
  unfold addRoot; split <;> rfl

theorem addRoot_of_knows {p : Path} (h : s.knows p = true) : s.addRoot p = s := if_pos h

theorem roots_prefix_addRoot (p : Path) : s.roots <+: (s.addRoot p).roots := by
  rw [addRoot_roots]
  split
  · exact List.prefix_rfl
  · exact List.prefix_append _ _

/-- After `addRoot` the path is known, and no other place became so. -/
theorem knows_addRoot (p q : Path) :
    (s.addRoot p).knows q = (s.knows q || p.same q) := by
  unfold addRoot
  split
  case isTrue h =>
    by_cases hpq : p.same q = true
    · rw [← knows_congr hpq, h, hpq]; rfl
    · simp [hpq]
  case isFalse h => simp [knows, Bool.or_comm]

@[simp] theorem knows_addRoot_self (p : Path) : (s.addRoot p).knows p = true := by
  simp [knows_addRoot]

theorem digest?_recordDigest (p q : Path) (d : String) :
    (s.recordDigest p d).digest? q = if p.same q then some d else s.digest? q := by
  unfold digest? recordDigest
  by_cases h : p.same q = true
  · simp [h]
  · -- an entry that was taken out names the same place as `p`, so it is none of `q`
    have hq : ∀ e : Path × String, e.1.same q = true → e.1.same p = false := by
      intro e he
      rw [Bool.eq_false_iff]
      intro hp
      exact h (Path.same_trans (by rwa [Path.same_comm]) he)
    rw [List.find?_cons_of_neg (by simpa using h), if_neg h, List.find?_filter]
    congr 2
    funext e
    cases he : e.1.same q with
    | false => simp [he]
    | true => simp [he, hq e he]

variable (c : Compiler σ Program)

/-- Noting a text changes the digests and the mark alone. -/
theorem noteText_eq (path : Path) (text : List Char) :
    noteText c s path text = { s.recordDigest path (c.digest text) with
      stale := s.stale || (s.knows path && decide (s.digest? path ≠ some (c.digest text))) } := by
  unfold noteText
  simp only
  split
  case isTrue h => simp only [h, Bool.or_true]
  case isFalse h =>
    simp only [Bool.not_eq_true] at h
    simp only [h, Bool.or_false]
    rfl

theorem noted_eq (k : Call σ) : noted c s k =
    { s with digests := (noted c s k).digests, stale := (noted c s k).stale } := by
  unfold noted
  split
  · rw [noteText_eq]; rfl
  · rfl

@[simp] theorem noted_knows (k : Call σ) (p : Path) : (noted c s k).knows p = s.knows p := by
  rw [noted_eq]; rfl
@[simp] theorem noted_roots (k : Call σ) : (noted c s k).roots = s.roots := by
  rw [noted_eq]
@[simp] theorem noted_options (k : Call σ) : (noted c s k).options = s.options := by
  rw [noted_eq]
@[simp] theorem noted_host (k : Call σ) : (noted c s k).host = s.host := by
  rw [noted_eq]
@[simp] theorem noted_program (k : Call σ) : (noted c s k).program = s.program := by
  rw [noted_eq]
@[simp] theorem noted_version (k : Call σ) : (noted c s k).version = s.version := by
  rw [noted_eq]
@[simp] theorem noted_rebuilds (k : Call σ) : (noted c s k).rebuilds = s.rebuilds := by
  rw [noted_eq]

theorem noted_addRoot_roots (k : Call σ) (p : Path) :
    ((noted c s k).addRoot p).roots = (s.addRoot p).roots := by
  simp [addRoot_roots]

end

section

variable (c : Compiler σ Program) (s : Session Program) (path : Path)

/-- Making the program anew either fails and marks the session, or puts the program in place. -/
theorem renew_cases (w : World σ) :
    (∃ e w', build c (s.addRoot path).roots s.options s.host w = (.error e, w') ∧
      renew c s path w = (.error e, { s.addRoot path with stale := true }, w')) ∨
    (∃ program w', build c (s.addRoot path).roots s.options s.host w = (.ok program, w') ∧
      renew c s path w = (.ok true, (s.addRoot path).install program,
        w'.write [((s.addRoot path).install program).installed])) := by
  unfold renew rebuild
  simp only [addRoot_options, addRoot_host]
  rcases build c (s.addRoot path).roots s.options s.host w with ⟨r, w'⟩
  cases r with
  | error e => exact .inl ⟨e, w', rfl, rfl⟩
  | ok program => exact .inr ⟨program, w', rfl, rfl⟩

/-- A root of a program that is up to date needs nothing; in any other case the program is made
anew. -/
theorem ensure_cases (w : World σ) :
    (s.knows path = true ∧ s.stale = false ∧ (c.inputsChanged s.program w).1 = false ∧
      ensure c s path w = (.ok false, s, (c.inputsChanged s.program w).2)) ∨
    (∃ v, (v = w ∨ v = (c.inputsChanged s.program w).2) ∧
      ensure c s path w = renew c s path v) := by
  unfold ensure
  by_cases h : (s.knows path && !s.stale) = true
  · rw [if_pos h]
    simp only [Bool.and_eq_true, Bool.not_eq_true'] at h
    rcases hc : c.inputsChanged s.program w with ⟨b, v⟩
    cases b with
    | false => exact .inl ⟨h.1, h.2, rfl, rfl⟩
    | true => exact .inr ⟨v, .inr rfl, rfl⟩
  · rw [if_neg h]
    exact .inr ⟨w, .inl rfl, rfl⟩

/-- A root of a session that is not stale waits for what the compiler tells of its inputs. -/
theorem ensure_of_fresh (known : s.knows path = true) (fresh : s.stale = false) (w : World σ) :
    ensure c s path w = match c.inputsChanged s.program w with
      | (true, w) => renew c s path w
      | (false, w) => (.ok false, s, w) := by
  rw [ensure, known, fresh]
  rfl

/-- In a stale session the program is made anew for any path. -/
theorem ensure_of_stale (h : s.stale = true) (w : World σ) :
    ensure c s path w = renew c s path w := by
  simp [ensure, h]

end

section

variable (c : Compiler σ Program) (s : Session Program)

theorem serve_of_root? {k : Call σ} {path : Path} (asked : k.root? = some path) :
    serve c s k = (.ensured (ensure c (noted c s k) path k.world).1,
      (ensure c (noted c s k) path k.world).2) := by
  rcases k with ⟨request, w⟩
  cases request with
  | ensure p | ensureCurrent p text =>
    obtain rfl : p = path := Option.some.inj asked
    rfl
  | emit p => simp [Call.root?] at asked

theorem reply_of_root? {k : Call σ} {path : Path} (asked : k.root? = some path) :
    reply c s k = .ensured (ensure c (noted c s k) path k.world).1 := by
  rw [reply, serve_of_root? c s asked]

theorem after_of_root? {k : Call σ} {path : Path} (asked : k.root? = some path) :
    after c s k = (ensure c (noted c s k) path k.world).2.1 := by
  rw [after, serve_of_root? c s asked]

theorem step_after (k : Call σ) : Step c s k (reply c s k) (after c s k) := by
  cases asked : k.root? with
  | none =>
    rcases k with ⟨request, w⟩
    cases request with
    | ensure | ensureCurrent => simp [Call.root?] at asked
    | emit path => exact .emit path rfl
  | some path =>
    rw [reply_of_root? c s asked, after_of_root? c s asked]
    rcases ensure_cases c (noted c s k) path k.world with
      ⟨known, fresh, unchanged, h⟩ | ⟨v, place, h⟩
    · rw [noted_knows] at known
      rw [noted_program] at unchanged
      rw [h]
      exact .keep path asked known fresh unchanged
    · rw [noted_program] at place
      rcases renew_cases c (noted c s k) path v with
        ⟨e, w', built, hr⟩ | ⟨program, w', built, hr⟩
      · rw [noted_options, noted_host] at built
        rw [h, hr]
        exact .fail path asked e v w' place built
      · rw [noted_options, noted_host] at built
        rw [h, hr]
        exact .install path asked program v place ⟨w', built⟩

end

section

variable (c : Compiler σ Program) (s : Session Program)

/-- A failed call keeps the program and its path among the roots, and leaves the session stale. -/
theorem after_failure {k : Call σ} {path : Path}
    (asked : k.root? = some path) {e : BuildError}
    (failed : reply c s k = .ensured (.error e)) :
    (after c s k).stale = true ∧ (after c s k).program = s.program ∧
      (after c s k).roots = (s.addRoot path).roots ∧ (after c s k).knows path = true := by
  have hs := step_after c s k
  generalize reply c s k = r, after c s k = t at hs failed
  cases hs with
  | emit p hp => simp [Call.root?, hp] at asked
  | keep => simp at failed
  | install => simp at failed
  | fail p hp =>
    obtain rfl : p = path := Option.some.inj (hp.symm.trans asked)
    refine ⟨rfl, ?_, noted_addRoot_roots c k p, knows_addRoot_self p⟩
    simp

theorem noted_stale (k : Call σ) (h : s.stale = true) : (noted c s k).stale = true := by
  unfold noted
  split
  · simp [noteText_eq, h]
  · exact h

theorem renew_result (path : Path) (w : World σ) : (renew c s path w).1 =
    (build c (s.addRoot path).roots s.options s.host w).1.map fun _ => true := by
  rcases renew_cases c s path w with ⟨e, w', built, hr⟩ | ⟨program, w', built, hr⟩
  · rw [hr, built]; rfl
  · rw [hr, built]; rfl

/-- Any path asked for is answered by making the program anew. -/
theorem reply_of_stale {k : Call σ} {path : Path} (asked : k.root? = some path)
    (h : s.stale = true) : reply c s k = .ensured
      ((build c (s.addRoot path).roots s.options s.host k.world).1.map fun _ => true) := by
  have hn := noted_stale c s k h
  rw [reply_of_root? c s asked, ensure_of_stale c _ path hn, renew_result, noted_addRoot_roots,
    noted_options, noted_host]

end

namespace Trial

/-- No program with `/app/b.ts` among its roots can be analyzed. -/
def compiler : Compiler Nat Scripted.Program :=
  Scripted.Script.compiler { broken := ["/app/b.ts"] }

def world : World Nat := ⟨⟨"/", []⟩, 0, []⟩

def host : ResourceHost := ⟨none, .unchanged⟩

def session : Session Scripted.Program :=
  { options := .standard, host, program := ⟨[], ["/app/b.ts"], false⟩ }

theorem started :
    start compiler .standard host world = (.ok session, { world with state := 1 }) := rfl

end Trial

end LiveLoader.Session
