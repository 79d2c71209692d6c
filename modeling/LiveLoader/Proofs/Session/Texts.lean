import LiveLoader.Proofs.Session.Roots

/-!
# Texts of a session

The digest of a text is kept before the program is made, so after a failure it tells nothing about
the program; the mark of a stale session does. As long as the session is not stale, every text given
since the program was put in place is the one whose digest was kept by then.
-/

namespace LiveLoader.Session

/-- The text that a call gives for a place. -/
def Call.textFor? (k : Call σ) (path : Path) : Option (List Char) :=
  match k.request with
  | .ensureCurrent p text => if p.same path then some text else none
  | _ => none

section

variable {s : Session Program}

theorem digest?_congr {p q : Path} (h : p.same q = true) : s.digest? p = s.digest? q := by
  unfold digest?
  congr 2
  funext e
  rw [Bool.eq_iff_iff]
  exact ⟨fun k => Path.same_trans k h, fun k => Path.same_trans k (by rwa [Path.same_comm])⟩

variable (c : Compiler σ Program)

theorem digest?_noteText (path : Path) (text : List Char) (q : Path) :
    (noteText c s path text).digest? q =
      if path.same q then some (c.digest text) else s.digest? q := by
  rw [noteText_eq, ← digest?_recordDigest]
  rfl

/-- A text is noted for a root of a session that stays up to date only if it changes no digest. -/
theorem digests_noteText {path : Path} {text : List Char} (known : s.knows path = true)
    (fresh : (noteText c s path text).stale = false) :
    s.digest? path = some (c.digest text) ∧
      ∀ q, (noteText c s path text).digest? q = s.digest? q := by
  have same : s.digest? path = some (c.digest text) := by
    rw [noteText_eq] at fresh
    simpa [known] using (Bool.or_eq_false_iff.mp fresh).2
  refine ⟨same, fun q => ?_⟩
  rw [digest?_noteText]
  split
  case isTrue h => rw [← digest?_congr h, same]
  case isFalse => rfl

/-- Whatever comes of a call, the digest of the text that it gives is kept, and all others stay. -/
theorem digest?_after_eq (k : Call σ) (q : Path) :
    (after c s k).digest? q = ((k.textFor? q).map c.digest).or (s.digest? q) := by
  have hd : (after c s k).digests = (noted c s k).digests := by
    have hs := step_after c s k
    generalize reply c s k = r, after c s k = t at hs
    cases hs with
    | emit p asked => simp [noted, asked]
    | keep => rfl
    | fail p => exact addRoot_digests p
    | install p => exact addRoot_digests p
  have hnoted : (after c s k).digest? q = (noted c s k).digest? q := by
    unfold digest?
    rw [hd]
  rw [hnoted]
  rcases k with ⟨request, w⟩
  cases request with
  | ensure p | emit p => rfl
  | ensureCurrent p text =>
    rw [show noted c s ⟨.ensureCurrent p text, w⟩ = noteText c s p text from rfl, digest?_noteText]
    by_cases hq : p.same q = true <;> simp [Call.textFor?, hq]

theorem digest?_after {k : Call σ} {path : Path} {text : List Char}
    (given : k.request = .ensureCurrent path text) :
    (after c s k).digest? path = some (c.digest text) := by
  simp [digest?_after_eq, Call.textFor?, given]

/-- A call that puts no program in place and leaves the session up to date changes no digest. -/
theorem digests_after (k : Call σ) (h : ¬ Installs c s k) (fresh : (after c s k).stale = false) :
    (∀ q, (after c s k).digest? q = s.digest? q) ∧
      ∀ q text, k.request = .ensureCurrent q text → s.digest? q = some (c.digest text) := by
  unfold Installs at h
  have hs := step_after c s k
  generalize reply c s k = r, after c s k = t at hs h fresh
  cases hs with
  | emit path asked => exact ⟨fun _ => rfl, fun q text given => by simp [asked] at given⟩
  | keep path asked known =>
    rcases k with ⟨request, w⟩
    cases request with
    | ensure p => exact ⟨fun _ => rfl, nofun⟩
    | ensureCurrent p text =>
      obtain rfl : p = path := Option.some.inj asked
      obtain ⟨same, kept⟩ := digests_noteText c known fresh
      refine ⟨kept, fun q text' given => ?_⟩
      cases given
      exact same
    | emit p => simp [Call.root?] at asked
  | fail path => simp at fresh
  | install path => exact absurd rfl h

/-- The same for calls one after another: each text given has the digest that was kept before the
first of them. -/
theorem digests_of_not_installsAmong (s : Session Program) (ks : List (Call σ))
    (h : ¬ InstallsAmong c s ks) (fresh : (afterAll c s ks).stale = false) :
    ∀ k ∈ ks, ∀ q text, k.request = .ensureCurrent q text →
      s.digest? q = some (c.digest text) := by
  induction ks generalizing s with
  | nil => simp
  | cons j ks ih =>
    simp only [InstallsAmong, not_or] at h
    have hfresh : (after c s j).stale = false :=
      ((program_of_not_installsAmong c _ ks h.2).2 fresh).1
    obtain ⟨kept, own⟩ := digests_after c j h.1 hfresh
    intro k hk q text given
    rcases List.mem_cons.mp hk with rfl | hk
    · exact own q text given
    · rw [← kept q]
      exact ih (after c s j) h.2 fresh k hk q text given

theorem fresh_of_ensured {k : Call σ} {b : Bool} (h : reply c s k = .ensured (.ok b)) :
    (after c s k).stale = false := by
  have hs := step_after c s k
  generalize reply c s k = r, after c s k = t at hs h
  cases hs with
  | emit | fail => simp at h
  | keep path asked known fresh => exact fresh
  | install => rfl

/-- A session stays up to date as long as no call fails. -/
theorem fresh_of_calls {s : Session Program} (fresh : s.stale = false) {ks : List (Call σ)}
    (ok : ∀ js k, js ++ [k] <+: ks → ∀ e, reply c (afterAll c s js) k ≠ .ensured (.error e)) :
    (afterAll c s ks).stale = false := by
  induction ks generalizing s with
  | nil => exact fresh
  | cons k ks ih =>
    have fresh_after : (after c s k).stale = false := by
      have hok := ok [] k (List.prefix_append [k] ks)
      have hs := step_after c s k
      rw [afterAll_nil] at hok
      generalize reply c s k = r, after c s k = t at hs hok
      cases hs with
      | emit => exact fresh
      | keep path asked known unnoted => exact unnoted
      | fail path asked e => exact absurd rfl (hok e)
      | install => rfl
    refine ih fresh_after fun js j hj e => ?_
    exact ok (k :: js) j (List.cons_prefix_cons.mpr ⟨rfl, hj⟩) e

end

/-- When a path was ensured with a text, no other text was given for it since the program in place
was made. When making a program failed, the text is not lost although its digest was kept: until
some program is put in place, whatever path is asked for next, a program is made anew over roots
among which the path is. -/
theorem text_of_program_or_made_anew (c : Compiler σ Program) {options : CompilerOptions}
    {host : ResourceHost} {w w' : World σ} {s₀ : Session Program}
    (started : start c options host w = (.ok s₀, w')) (ks : List (Call σ)) (path : Path)
    (text : List Char) (v : World σ) :
    let s := afterAll c s₀ ks
    (∀ b, (ensureCurrent c s path text v).1 = .ok b →
      (∀ k ∈ ks, ∀ q t, k.request = .ensureCurrent q t → c.digest t = c.digest text → t = text) →
      ∃ js is, ks ++ [⟨.ensureCurrent path text, v⟩] = js ++ is ∧ Origin c s₀ js is ∧
        ∀ k ∈ is, ∀ q t, k.request = .ensureCurrent q t → q.same path = true → t = text) ∧
    ∀ e, (ensureCurrent c s path text v).1 = .error e →
      let s' := (ensureCurrent c s path text v).2.1
      s'.digest? path = some (c.digest text) ∧
      ∀ ms, ¬ InstallsAmong c s' ms → ∀ k q, k.root? = some q →
        let t := afterAll c s' ms
        (∃ r ∈ t.roots, r.same path = true) ∧
        reply c t k = .ensured
          ((build c (t.addRoot q).roots options host k.world).1.map fun _ => true) := by
  intro s
  let last : Call σ := ⟨.ensureCurrent path text, v⟩
  have hlast : after c s last = (ensureCurrent c s path text v).2.1 := rfl
  have hall : ∀ ms, afterAll c s₀ (ks ++ last :: ms) = afterAll c (after c s last) ms := by
    intro ms
    rw [afterAll_append, afterAll_cons]
  refine ⟨?_, ?_⟩
  · intro b hok collisionFree
    obtain ⟨js, is, hsplit, origin⟩ := exists_origin c s₀ (ks ++ [last])
    refine ⟨js, is, hsplit, origin, ?_⟩
    intro k hk q t given hq
    have fresh : (afterAll c (afterAll c s₀ js) is).stale = false := by
      rw [← afterAll_append, ← hsplit, hall]
      exact fresh_of_ensured c (k := last) (congrArg Reply.ensured hok)
    have kept := digests_of_not_installsAmong c _ is origin.kept fresh
    have mem : last ∈ is := by
      have h : (js ++ is).getLast? = some last := by rw [← hsplit, List.getLast?_append]; rfl
      rw [List.getLast?_append, List.getLast?_eq_some_getLast (List.ne_nil_of_mem hk),
        Option.some_or] at h
      rw [← Option.some.inj h]
      exact List.getLast_mem _
    have heq : c.digest t = c.digest text := by
      have hp := kept last mem path text rfl
      rw [← digest?_congr hq, kept k hk q t given] at hp
      exact Option.some.inj hp
    have hmem : k ∈ ks ++ [last] := by
      rw [hsplit]
      exact List.mem_append_right js hk
    rcases List.mem_append.mp hmem with hmem | hmem
    · exact collisionFree k hmem q t given heq
    · rw [List.mem_singleton.mp hmem] at given
      cases given
      rfl
  · intro e herr s'
    have failed : reply c s last = .ensured (.error e) := congrArg Reply.ensured herr
    obtain ⟨stale, -, -, known⟩ := after_failure c s rfl failed
    refine ⟨digest?_after c (k := last) rfl, ?_⟩
    intro ms hms k q asked t
    have hc : Consistent options host t := by
      have := Consistent.of_calls started (ks ++ last :: ms)
      rwa [hall] at this
    have hs' : Consistent options host s' := by
      have := Consistent.of_calls started (ks ++ [last])
      rwa [hall] at this
    obtain ⟨r, hr, hsame⟩ := (hs'.known_iff path).mp known
    refine ⟨⟨r, (roots_prefix_afterAll c ms).subset hr, hsame⟩, ?_⟩
    rw [reply_of_stale c t asked (stale_of_not_installsAmong c s' hms stale), hc.options_eq,
      hc.host_eq]

namespace Trial

def textCalls : List (Call Nat) :=
  [⟨.ensureCurrent "/app/a.ts" "x".toList, world⟩, ⟨.ensure "/app/a.ts", world⟩,
    ⟨.ensureCurrent "/app/a.ts" "y".toList, world⟩]

/-- The session in which a program for `/app/b.ts` could not be made. -/
def failedSession : Session Scripted.Program :=
  (ensureCurrent compiler session "/app/b.ts" "z".toList world).2.1

end Trial

set_option maxRecDepth 10000 in
theorem text_of_program_or_made_anew_trial :
    (∃ js is, Trial.textCalls ++ [⟨.ensureCurrent "/app/a.ts" "y".toList, Trial.world⟩] = js ++ is ∧
      Origin Trial.compiler Trial.session js is ∧
      ∀ k ∈ is, ∀ q t, k.request = .ensureCurrent q t → q.same "/app/a.ts" = true →
        t = "y".toList) ∧
    ∀ k q, k.root? = some q → reply Trial.compiler Trial.failedSession k = .ensured
      ((build Trial.compiler (Trial.failedSession.addRoot q).roots .standard Trial.host
        k.world).1.map fun _ => true) := by
  obtain ⟨current, -⟩ := text_of_program_or_made_anew Trial.compiler Trial.started
    Trial.textCalls "/app/a.ts" "y".toList Trial.world
  obtain ⟨-, failed⟩ := text_of_program_or_made_anew Trial.compiler Trial.started
    [] "/app/b.ts" "z".toList Trial.world
  refine ⟨current false (by decide +kernel) ?_, fun k q asked => ?_⟩
  · have differ : Trial.compiler.digest "x".toList ≠ Trial.compiler.digest "y".toList := by
      decide +kernel
    intro k hk q t ht heq
    simp only [Trial.textCalls, List.mem_cons, List.not_mem_nil, or_false] at hk
    rcases hk with rfl | rfl | rfl
    · cases ht; exact absurd heq differ
    · cases ht
    · cases ht; rfl
  · obtain ⟨-, later⟩ := failed (.transformFailure "analysis" "broken root") (by decide +kernel)
    exact (later [] id k q asked).2

end LiveLoader.Session
