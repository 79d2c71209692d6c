import LiveLoader.Path.Basic
import LiveLoader.Proofs.Text.Pieces
import Mathlib.Data.List.Basic

/-!
# Normal paths

What normalizing gives is a root or none, a `..` or none, and names. The texts that are put together
and taken apart on the way are all written with single separators, so each of them is known by its
pieces, and normalizing is a walk over the components that pushes and drops names.
-/

namespace LiveLoader

open Text

/-- A piece of a path that counts as a component wherever it stands. -/
structure IsPiece (p : List Char) : Prop where
  ne_nil : p ≠ []
  notMem : '/' ∉ p
  ne_current : p ≠ ['.']

structure IsName (p : List Char) : Prop extends IsPiece p where
  ne_parent : p ≠ ['.', '.']

theorem IsPiece.parent : IsPiece ['.', '.'] := ⟨by simp, by decide, by simp⟩

namespace Component

/-- The component of a piece. -/
def ofName (p : List Char) : Component := if p = ['.', '.'] then parent else normal p

theorem ofPiece_of_isPiece {p : List Char} (h : IsPiece p) (first : Bool) :
    ofPiece first p = some (ofName p) := by
  unfold ofPiece ofName
  rw [if_neg h.ne_nil, if_neg h.ne_current]
  split <;> rfl

theorem ofName_of_isName {p : List Char} (h : IsName p) : ofName p = normal p :=
  if_neg h.ne_parent

theorem ofName_ne_root (p : List Char) : ofName p ≠ root := by
  unfold ofName
  split <;> simp

@[simp] theorem text_ofName (p : List Char) : (ofName p).text = p := by
  unfold ofName
  split
  case isTrue h => rw [h]; rfl
  case isFalse => rfl

/-- A name among components is one that a piece can have. -/
def Valid : Component → Prop
  | normal name => IsName name
  | _ => True

theorem valid_of_ofPiece {first : Bool} {p : List Char} {c : Component}
    (h : ofPiece first p = some c) (hp : '/' ∉ p) : c.Valid ∧ c ≠ root := by
  unfold ofPiece at h
  split at h
  case isTrue => simp at h
  case isFalse hnil =>
    split at h
    case isTrue =>
      split at h
      · cases h; exact ⟨trivial, by simp⟩
      · simp at h
    case isFalse hcurrent =>
      split at h
      case isTrue => cases h; exact ⟨trivial, by simp⟩
      case isFalse hparent => cases h; exact ⟨⟨⟨hnil, hp, hcurrent⟩, hparent⟩, by simp⟩

end Component

namespace Path

/-- The path that is written with these pieces. -/
def spell (rooted : Bool) (ps : List (List Char)) : Path :=
  ⟨(if rooted then ['/'] else []) ++ joinPieces '/' ps⟩

section

variable {r : Bool} {ps : List (List Char)} {p : List Char}

/-- What stands before the last piece. -/
def front (rooted : Bool) (ps : List (List Char)) : List Char :=
  if ps = [] then (if rooted then ['/'] else []) else (spell rooted ps).text ++ ['/']

theorem text_spell_concat (r : Bool) (ps : List (List Char)) (p : List Char) :
    (spell r (ps ++ [p])).text = front r ps ++ p := by
  unfold front
  simp only [spell, joinPieces_concat]
  by_cases h : ps = []
  · rw [if_pos h, if_pos h]
  · rw [if_neg h, if_neg h]
    simp

theorem head?_joinPieces (h : ∀ p ∈ ps, IsPiece p) : (joinPieces '/' ps).head? ≠ some '/' := by
  cases ps with
  | nil => simp [joinPieces]
  | cons p ps =>
    have hp := h p List.mem_cons_self
    have hhead : p.head? ≠ some '/' := fun he => hp.notMem (List.mem_of_head? he)
    by_cases hps : ps = []
    · subst hps
      exact hhead
    · rw [joinPieces_cons p hps, List.head?_append, List.head?_eq_some_head hp.ne_nil,
        Option.some_or, ← List.head?_eq_some_head]
      exact hhead

@[simp] theorem isAbsolute_spell (h : ∀ p ∈ ps, IsPiece p) : (spell r ps).isAbsolute = r := by
  cases r with
  | true => simp [isAbsolute, spell]
  | false => simp [isAbsolute, spell, head?_joinPieces h]

/-- One step of joining adds a piece. -/
theorem join_spell (h : ∀ q ∈ ps, IsPiece q) (hp : IsPiece p) :
    (spell r ps).join ⟨p⟩ = spell r (ps ++ [p]) := by
  have hrel : (Path.mk p).isAbsolute = false := by
    rw [Bool.eq_false_iff]
    intro ha
    exact hp.notMem (List.mem_of_head? (by simpa [isAbsolute] using ha))
  have htext := text_spell_concat r ps p
  unfold join
  rw [hrel, if_neg Bool.false_ne_true]
  rcases List.eq_nil_or_concat' ps with rfl | ⟨qs, q, rfl⟩
  · cases r <;> simp [spell, joinPieces]
  · have hq : IsPiece q := h q (by simp)
    have hlast := text_spell_concat r qs q
    have hne : (spell r (qs ++ [q])).text ≠ [] := by
      rw [hlast]
      simp [hq.ne_nil]
    have hslash : (spell r (qs ++ [q])).text.getLast? ≠ some '/' := by
      rw [hlast, List.getLast?_append, List.getLast?_eq_some_getLast hq.ne_nil, Option.some_or]
      intro he
      exact hq.notMem (Option.some.inj he ▸ List.getLast_mem hq.ne_nil)
    rw [if_neg hne, if_neg hslash]
    rw [front, if_neg (by simp)] at htext
    refine Eq.trans ?_ (congrArg Path.mk htext).symm
    simp

theorem filterMap_ofPiece (h : ∀ p ∈ ps, IsPiece p) (first : Bool) :
    ps.filterMap (Component.ofPiece first) = ps.map Component.ofName := by
  induction ps with
  | nil => rfl
  | cons p ps ih =>
    rw [List.filterMap_cons, Component.ofPiece_of_isPiece (h p List.mem_cons_self),
      ih fun q hq => h q (List.mem_cons_of_mem p hq)]
    rfl

theorem components_spell (h : ∀ p ∈ ps, IsPiece p) : (spell r ps).components =
    (if r then [.root] else []) ++ ps.map Component.ofName := by
  have hpieces : ∀ first,
      (pieces '/' (joinPieces '/' ps)).filterMap (Component.ofPiece first) =
        ps.map Component.ofName := by
    intro first
    by_cases hps : ps = []
    · subst hps; rfl
    · rw [pieces_joinPieces hps fun p hp => (h p hp).notMem, filterMap_ofPiece h]
  unfold components
  rw [isAbsolute_spell h]
  cases r with
  | true =>
    simp only [spell, if_true, List.singleton_append, pieces]
    simp only [List.filterMap_cons, Component.ofPiece, if_true, hpieces]
  | false =>
    by_cases hps : ps = []
    · subst hps; rfl
    · have hj : pieces '/' (joinPieces '/' ps) = ps :=
        pieces_joinPieces hps fun p hp => (h p hp).notMem
      simp only [spell, Bool.false_eq_true, if_false, List.nil_append, hj]
      rw [filterMap_ofPiece fun p hp => h p (List.mem_of_mem_take hp),
        filterMap_ofPiece fun p hp => h p (List.mem_of_mem_drop hp), ← List.map_append,
        List.take_append_drop]

/-- A text that ends in a piece has nothing behind its last component. -/
theorem go_trimmed (n : Nat) (s : List Char) (hp : IsPiece p) :
    trimmed.go n (s ++ p) = s ++ p := by
  cases n with
  | zero => rfl
  | succ n =>
    have hmem : ∀ c ∈ p.reverse, c ≠ '/' := by
      intro c hc he
      exact hp.notMem (List.mem_reverse.mp (he ▸ hc))
    rw [trimmed.go, List.reverse_append]
    cases hr : p.reverse with
    | nil => exact absurd (List.reverse_eq_nil_iff.mp hr) hp.ne_nil
    | cons a l =>
      rw [hr] at hmem
      have ha : a ≠ '/' := hmem a List.mem_cons_self
      cases l with
      | nil =>
        have hdot : a ≠ '.' := by
          rintro rfl
          exact hp.ne_current (List.reverse_eq_iff.mp hr)
        simp [ha, hdot]
      | cons b l =>
        have hb : b ≠ '/' := hmem b (by simp)
        simp [ha, hb]

theorem trimmed_spell_concat (hp : IsPiece p) :
    (spell r (ps ++ [p])).trimmed = (spell r (ps ++ [p])).text := by
  unfold trimmed
  rw [text_spell_concat]
  exact go_trimmed _ _ hp

theorem trimmed_front (h : ∀ p ∈ ps, IsPiece p) :
    (Path.mk (front r ps)).trimmed = (spell r ps).text := by
  rcases List.eq_nil_or_concat' ps with rfl | ⟨qs, q, rfl⟩
  · cases r <;> rfl
  · have hq : IsPiece q := h q (by simp)
    have hrev : (spell r (qs ++ [q])).text.reverse ≠ [] := by
      rw [text_spell_concat]
      simp [hq.ne_nil]
    have hgo := go_trimmed (spell r (qs ++ [q])).text.length (front r qs) hq
    rw [← text_spell_concat] at hgo
    rw [front, if_neg (by simp)]
    unfold trimmed
    simp only [List.length_append, List.length_singleton, trimmed.go, List.reverse_append,
      List.reverse_singleton, List.singleton_append, List.isEmpty_iff, hrev, if_false,
      List.reverse_reverse]
    exact hgo

/-- Going up drops the last piece. -/
theorem parent?_spell_concat (h : ∀ q ∈ ps, IsPiece q) (hp : IsPiece p) :
    (spell r (ps ++ [p])).parent? = some (spell r ps) := by
  have hall : ∀ q ∈ ps ++ [p], IsPiece q := by
    intro q hq
    rcases List.mem_append.mp hq with hq | hq
    · exact h q hq
    · rwa [List.mem_singleton.mp hq]
  have hlast : (spell r (ps ++ [p])).components.getLast? = some (.ofName p) := by
    rw [components_spell hall, List.map_append, ← List.append_assoc]
    exact List.getLast?_concat
  unfold parent?
  rw [hlast]
  split
  case h_1 he => cases he
  case h_2 he => exact absurd (Option.some.inj he) (Component.ofName_ne_root p)
  case h_3 c _ he =>
    cases he
    rw [trimmed_spell_concat hp, text_spell_concat, Component.text_ofName]
    simp only [List.length_append, Nat.add_sub_cancel, List.take_left']
    rw [trimmed_front h]

theorem parent?_spell_nil (r : Bool) : (spell r []).parent? = none := by
  cases r <;> rfl

end

/-- A path that was normalized: a root or none, a `..` or none, and names. -/
structure Normal where
  rooted : Bool
  up : Bool
  names : List (List Char)
  deriving DecidableEq, Repr

namespace Normal

def empty : Normal := ⟨false, false, []⟩

def Valid (n : Normal) : Prop := ∀ name ∈ n.names, IsName name

def pieces (n : Normal) : List (List Char) := (if n.up then [['.', '.']] else []) ++ n.names

def path (n : Normal) : Path := spell n.rooted n.pieces

def components (n : Normal) : List Component :=
  (if n.rooted then [.root] else []) ++ (if n.up then [.parent] else [])
    ++ n.names.map Component.normal

/-- A `..` drops the last name, then the `..` in front, and stays where there is none of both. -/
def push (n : Normal) : Component → Normal
  | .root => { n with rooted := true }
  | .current => n
  | .parent =>
    match n.names with
    | [] => { n with up := !n.up }
    | _ :: _ => { n with names := n.names.dropLast }
  | .normal name => { n with names := n.names ++ [name] }

section

variable {n : Normal}

theorem Valid.isPiece (h : n.Valid) : ∀ p ∈ n.pieces, IsPiece p := by
  intro p hp
  rcases List.mem_append.mp hp with hp | hp
  · split at hp
    · rw [List.mem_singleton.mp hp]; exact .parent
    · simp at hp
  · exact (h p hp).toIsPiece

theorem Valid.push (h : n.Valid) {c : Component} (hc : c.Valid) : (n.push c).Valid := by
  cases c with
  | root | current => exact h
  | parent =>
    simp only [Normal.push]
    split
    · exact h
    · exact fun name hm => h name (List.dropLast_subset _ hm)
  | normal name =>
    intro m hm
    rcases List.mem_append.mp hm with hm | hm
    · exact h m hm
    · rwa [List.mem_singleton.mp hm]

theorem components_path (h : n.Valid) : n.path.components = n.components := by
  have hnames : n.names.map Component.ofName = n.names.map Component.normal :=
    List.map_congr_left fun name hm => Component.ofName_of_isName (h name hm)
  unfold path components
  rw [components_spell h.isPiece, pieces, List.map_append, hnames, ← List.append_assoc]
  cases n.up <;> rfl

/-- A step of normalizing pushes the component. -/
theorem step_path (h : n.Valid) {c : Component} (hc : c.Valid) (hroot : c ≠ .root) :
    normalize.step n.path c = (n.push c).path := by
  cases c with
  | root => exact absurd rfl hroot
  | current => rfl
  | normal name =>
    show n.path.join ⟨name⟩ = _
    unfold path
    rw [join_spell h.isPiece hc.toIsPiece, pieces, List.append_assoc]
    rfl
  | parent =>
    show n.path.parent?.getD (n.path.join ⟨['.', '.']⟩) = _
    rcases n with ⟨r, up, names⟩
    rcases List.eq_nil_or_concat' names with rfl | ⟨ms, m, rfl⟩
    · cases up with
      | false =>
        have hj : (spell r []).join ⟨['.', '.']⟩ = spell r ([] ++ [['.', '.']]) :=
          join_spell (by simp) .parent
        simpa [path, pieces, push, parent?_spell_nil] using hj
      | true =>
        have hp : (spell r ([] ++ [['.', '.']])).parent? = some (spell r []) :=
          parent?_spell_concat (by simp) .parent
        simp only [List.nil_append] at hp
        simp [path, pieces, push, hp]
    · have hm : IsPiece m := (h m (by simp)).toIsPiece
      have hpieces : ∀ p ∈ (if up then [['.', '.']] else []) ++ ms, IsPiece p := by
        intro p hp
        refine h.isPiece p ?_
        show p ∈ (if up then [['.', '.']] else []) ++ (ms ++ [m])
        rw [← List.append_assoc]
        exact List.mem_append_left _ hp
      have hpush : push ⟨r, up, ms ++ [m]⟩ .parent = ⟨r, up, ms⟩ := by
        simp only [push]
        split
        case h_1 he => simp at he
        case h_2 => simp
      rw [hpush]
      show (spell r ((if up then [['.', '.']] else []) ++ (ms ++ [m]))).parent?.getD _ = _
      rw [← List.append_assoc, parent?_spell_concat hpieces hm]
      rfl

/-- Pushing the components of a normal path from nothing gives it back. -/
theorem foldl_push_components (n : Normal) : n.components.foldl push empty = n := by
  have hnames : ∀ (ms : List (List Char)) (m : Normal),
      (ms.map Component.normal).foldl push m = { m with names := m.names ++ ms } := by
    intro ms
    induction ms with
    | nil => simp
    | cons name ms ih =>
      intro m
      rw [List.map_cons, List.foldl_cons, ih]
      simp [push]
  rcases n with ⟨r, up, names⟩
  unfold components
  rw [List.foldl_append, hnames]
  cases r <;> cases up <;> rfl

end

end Normal

/-- The normal form of a path. -/
def normal (p : Path) : Normal := p.components.foldl Normal.push .empty

/-- The components of a path are sound; an absolute path has one root, which is the first. -/
theorem exists_components (p : Path) :
    ∃ cs, p.components = (if p.isAbsolute then [.root] else []) ++ cs ∧
      ∀ c ∈ cs, c.Valid ∧ c ≠ .root := by
  have hvalid : ∀ (first : Bool) (ps : List (List Char)), (∀ q ∈ ps, q ∈ pieces '/' p.text) →
      ∀ c ∈ ps.filterMap (Component.ofPiece first), c.Valid ∧ c ≠ .root := by
    intro first ps hps c hc
    obtain ⟨q, hq, he⟩ := List.mem_filterMap.mp hc
    exact Component.valid_of_ofPiece he (notMem_of_mem_pieces (hps q hq))
  unfold components
  cases p.isAbsolute with
  | true => exact ⟨_, rfl, hvalid false _ fun _ hq => hq⟩
  | false =>
    refine ⟨_, rfl, ?_⟩
    intro c hc
    rcases List.mem_append.mp hc with hc | hc
    · exact hvalid true _ (fun _ hq => List.mem_of_mem_take hq) c hc
    · exact hvalid false _ (fun _ hq => List.mem_of_mem_drop hq) c hc

theorem foldl_step {cs : List Component} (hcs : ∀ c ∈ cs, c.Valid ∧ c ≠ .root) {n : Normal}
    (h : n.Valid) : cs.foldl normalize.step n.path = (cs.foldl Normal.push n).path ∧
      (cs.foldl Normal.push n).Valid := by
  induction cs generalizing n with
  | nil => exact ⟨rfl, h⟩
  | cons c cs ih =>
    obtain ⟨hc, hroot⟩ := hcs c List.mem_cons_self
    rw [List.foldl_cons, List.foldl_cons, Normal.step_path h hc hroot]
    exact ih (fun d hd => hcs d (List.mem_cons_of_mem c hd)) (h.push hc)

theorem normalize_eq (p : Path) : p.normalize = p.normal.path ∧ p.normal.Valid := by
  obtain ⟨cs, hcs, hvalid⟩ := p.exists_components
  unfold normalize normal
  rw [hcs]
  cases p.isAbsolute with
  | true => exact foldl_step (n := ⟨true, false, []⟩) hvalid (by simp [Normal.Valid])
  | false => exact foldl_step (n := .empty) hvalid (by simp [Normal.Valid, Normal.empty])

theorem components_normalize (p : Path) : p.normalize.components = p.normal.components := by
  obtain ⟨hnormal, hvalid⟩ := p.normalize_eq
  rw [hnormal, Normal.components_path hvalid]

theorem normal_path {n : Normal} (h : n.Valid) : n.path.normal = n := by
  unfold normal
  rw [Normal.components_path h, Normal.foldl_push_components]

@[simp] theorem normal_normalize (p : Path) : p.normalize.normal = p.normal := by
  obtain ⟨he, hv⟩ := p.normalize_eq
  rw [he, normal_path hv]

@[simp] theorem normalize_normalize (p : Path) : p.normalize.normalize = p.normalize := by
  rw [(normalize_eq _).1, normal_normalize, ← (normalize_eq p).1]

/-- Normalized paths name the same place only if they are the same text. -/
theorem eq_of_same {p q : Path} (hp : p.normalize = p) (hq : q.normalize = q)
    (h : p.same q = true) : p = q := by
  have hc : p.components = q.components := by simpa [same] using h
  rw [← hp, ← hq]
  unfold normalize
  rw [hc]

theorem normalize_absolutize (p cwd : Path) : (p.absolutize cwd).normalize = p.absolutize cwd := by
  unfold absolutize
  split <;> exact normalize_normalize _

theorem absolutize_of_normal {p : Path} (absolute : p.isAbsolute = true)
    (normal : p.normalize = p) (cwd : Path) : p.absolutize cwd = p := by
  rw [absolutize, if_pos absolute, normal]

end Path

end LiveLoader
