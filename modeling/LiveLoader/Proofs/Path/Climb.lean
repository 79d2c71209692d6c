import LiveLoader.Proofs.Path.Normal

/-!
# Paths that climb

A path that is not rooted leads up from its start to some highest place, and from there down by
names. Normalizing keeps the way down, but two `..` in front of a path take each other away, so of
the way up only its parity is left. The main statement, `absolutize_normalize_iff`, says exactly when
this changes where the path leads.
-/

namespace LiveLoader.Path

open Text

/-- How far above its start a way goes at its highest place. -/
def ascent : List Component → Nat
  | [] => 0
  | .parent :: cs => ascent cs + 1
  | .normal _ :: cs => ascent cs - 1
  | _ :: cs => ascent cs

/-- The names from the highest place of a way down to its end. -/
def descent : List Component → List (List Char)
  | [] => []
  | .normal name :: cs => if ascent cs = 0 then name :: descent cs else descent cs
  | _ :: cs => descent cs

namespace Normal

/-- Goes up by a number of `..`. -/
def climb (n : Normal) : Nat → Normal
  | 0 => n
  | k + 1 => (n.push .parent).climb k

/-- Goes down by names. -/
def descend (n : Normal) (names : List (List Char)) : Normal := { n with names := n.names ++ names }

@[simp] theorem rooted_push_parent (n : Normal) : (n.push .parent).rooted = n.rooted := by
  simp only [push]
  split <;> rfl

@[simp] theorem names_push_parent (n : Normal) : (n.push .parent).names = n.names.dropLast := by
  simp only [push]
  split
  case h_1 h => simp [h]
  case h_2 => rfl

/-- A `..` behind a name takes it back. -/
theorem push_name_parent (n : Normal) (name : List Char) :
    (n.push (.normal name)).push .parent = n := by
  simp only [push]
  split
  case h_1 h => simp at h
  case h_2 => simp

/-- A way leads up to its highest place, and from there down. -/
theorem foldl_push {cs : List Component} (hroot : Component.root ∉ cs) (n : Normal) :
    cs.foldl push n = (n.climb (ascent cs)).descend (descent cs) := by
  induction cs generalizing n with
  | nil => simp [ascent, descent, climb, descend]
  | cons c cs ih =>
    rw [List.mem_cons, not_or] at hroot
    rw [List.foldl_cons, ih hroot.2]
    cases c with
    | root => exact absurd rfl hroot.1
    | current | parent => rfl
    | normal name =>
      -- the name is kept only if the rest of the way does not climb back over it
      cases h : ascent cs with
      | zero => simp [ascent, descent, h, climb, descend, push]
      | succ k => simp [ascent, descent, h, climb, push_name_parent]

@[simp] theorem rooted_climb (n : Normal) (k : Nat) : (n.climb k).rooted = n.rooted := by
  induction k generalizing n with
  | zero => rfl
  | succ k ih => rw [climb, ih, rooted_push_parent]

/-- Going up takes back the last names as long as there are any. -/
theorem names_climb (n : Normal) (k : Nat) :
    (n.climb k).names = n.names.take (n.names.length - k) := by
  induction k generalizing n with
  | zero => simp [climb]
  | succ k ih =>
    rw [climb, ih, names_push_parent, List.dropLast_eq_take, List.take_take, List.length_take]
    congr 1
    omega

/-- Where no name is left, a `..` takes back the one in front or is the one in front. -/
theorem up_climb (n : Normal) (k : Nat) :
    (n.climb k).up = (n.up ^^ decide ((k - n.names.length) % 2 = 1)) := by
  induction k generalizing n with
  | zero => simp [climb]
  | succ k ih =>
    rw [climb, ih, names_push_parent, List.length_dropLast]
    cases h : n.names with
    | nil =>
      have hup : (n.push .parent).up = !n.up := by simp [push, h]
      have hflip : decide ((k + 1) % 2 = 1) = !decide (k % 2 = 1) := by
        rw [← decide_not, decide_eq_decide]
        omega
      rw [hup]
      simp [hflip]
    | cons name names =>
      have hup : (n.push .parent).up = n.up := by simp [push, h]
      rw [hup]
      simp

theorem climb_eq_climb {n : Normal} {j k : Nat} : n.climb j = n.climb k ↔
    n.names.length - j = n.names.length - k ∧
      (j - n.names.length) % 2 = (k - n.names.length) % 2 := by
  constructor
  · intro h
    have hnames := congrArg (·.names.length) h
    have hup := congrArg Normal.up h
    simp only [names_climb, List.length_take] at hnames
    simp only [up_climb, Bool.xor_right_inj, decide_eq_decide] at hup
    omega
  · rintro ⟨hlength, hparity⟩
    rw [Normal.mk.injEq]
    exact ⟨by simp, by rw [up_climb, up_climb, hparity], by rw [names_climb, names_climb, hlength]⟩

theorem descend_inj {n m : Normal} {names : List (List Char)} :
    n.descend names = m.descend names ↔ n = m := by
  cases n
  cases m
  simp [descend]

theorem way_names (names : List (List Char)) :
    ascent (names.map Component.normal) = 0 ∧ descent (names.map Component.normal) = names := by
  induction names with
  | nil => exact ⟨rfl, rfl⟩
  | cons name names ih => simp [ascent, descent, ih]

theorem way_components (n : Normal) :
    ascent n.components = (if n.up then 1 else 0) ∧ descent n.components = n.names := by
  obtain ⟨hascent, hdescent⟩ := way_names n.names
  rcases n with ⟨r, up, names⟩
  cases r <;> cases up <;> simp_all [components, ascent, descent]

end Normal

theorem isAbsolute_join {p cwd : Path} (absolute : cwd.isAbsolute = true) :
    (cwd.join p).isAbsolute = true := by
  have hhead : cwd.text.head? = some '/' := by simpa [isAbsolute] using absolute
  unfold join
  split
  case isTrue h => exact h
  case isFalse =>
    split
    case isTrue h => simp [h] at hhead
    case isFalse => split <;> simp [isAbsolute, List.head?_append, hhead]

/-- Behind a directory no `.` counts, also not the first. -/
theorem components_join {p cwd : Path} (relative : p.isAbsolute = false)
    (absolute : cwd.isAbsolute = true) : (cwd.join p).components =
      cwd.components ++ (pieces '/' p.text).filterMap (Component.ofPiece false) := by
  have hne : cwd.text ≠ [] := by
    intro h
    simp [isAbsolute, h] at absolute
  have hjoined : ∃ t, (cwd.join p).text = t ++ '/' :: p.text ∧
      (pieces '/' t).filterMap (Component.ofPiece false) =
        (pieces '/' cwd.text).filterMap (Component.ofPiece false) := by
    unfold join
    rw [relative, if_neg Bool.false_ne_true, if_neg hne]
    split
    case isTrue h =>
      obtain ⟨t, ht⟩ := List.getLast?_eq_some_iff.mp h
      refine ⟨t, by simp [ht], ?_⟩
      rw [ht, pieces_append_sep, List.filterMap_append]
      simp [pieces, Component.ofPiece]
    case isFalse => exact ⟨cwd.text, rfl, rfl⟩
  obtain ⟨t, ht, hpieces⟩ := hjoined
  unfold components
  rw [isAbsolute_join absolute, absolute, if_pos rfl, if_pos rfl, ht, pieces_append_sep,
    List.filterMap_append, hpieces]
  rfl

theorem foldl_push_pieces {p : Path} (relative : p.isAbsolute = false) (n : Normal) :
    ((pieces '/' p.text).filterMap (Component.ofPiece false)).foldl Normal.push n =
      p.components.foldl Normal.push n := by
  unfold components
  rw [relative]
  cases h : pieces '/' p.text with
  | nil => exact absurd h (pieces_ne_nil '/' p.text)
  | cons q qs =>
    by_cases hq : q = ['.']
    · simp [hq, Component.ofPiece, Normal.push]
    · have hfirst : Component.ofPiece true q = Component.ofPiece false q := by
        simp [Component.ofPiece, hq]
      cases hc : Component.ofPiece false q <;> simp [hfirst, hc]

theorem normal_join {p cwd : Path} (relative : p.isAbsolute = false)
    (absolute : cwd.isAbsolute = true) :
    (cwd.join p).normal = p.components.foldl Normal.push cwd.normal := by
  unfold normal
  rw [components_join relative absolute, List.foldl_append, foldl_push_pieces relative]

theorem root_notMem_components {p : Path} (relative : p.isAbsolute = false) :
    Component.root ∉ p.components := by
  obtain ⟨cs, hcs, hvalid⟩ := p.exists_components
  rw [hcs, relative]
  exact fun h => (hvalid _ h).2 rfl

theorem rooted_normal (p : Path) : p.normal.rooted = p.isAbsolute := by
  obtain ⟨cs, hcs, hvalid⟩ := p.exists_components
  have hroot : Component.root ∉ cs := fun h => (hvalid _ h).2 rfl
  unfold normal
  rw [hcs, List.foldl_append, Normal.foldl_push hroot]
  cases p.isAbsolute <;> simp [Normal.descend, Normal.push, Normal.empty]

@[simp] theorem isAbsolute_normalize (p : Path) : p.normalize.isAbsolute = p.isAbsolute := by
  obtain ⟨hnormal, hvalid⟩ := p.normalize_eq
  rw [hnormal, ← rooted_normal p]
  exact isAbsolute_spell hvalid.isPiece

/-- Normalizing keeps the way down, and of the way up whether it is odd. -/
theorem way_normalize {p : Path} (relative : p.isAbsolute = false) :
    ascent p.normalize.components = ascent p.components % 2 ∧
      descent p.normalize.components = descent p.components := by
  obtain ⟨hnormal, hvalid⟩ := p.normalize_eq
  obtain ⟨hascent, hdescent⟩ := Normal.way_components p.normal
  rw [hnormal, Normal.components_path hvalid, hascent, hdescent, normal,
    Normal.foldl_push (root_notMem_components relative)]
  simp only [Normal.descend, Normal.up_climb, Normal.names_climb]
  rcases Nat.mod_two_eq_zero_or_one (ascent p.components) with h | h <;> simp [Normal.empty, h]

/-- Where a path that is not rooted leads from a directory. -/
theorem normal_absolutize {p cwd : Path} (relative : p.isAbsolute = false)
    (absolute : cwd.isAbsolute = true) : (p.absolutize cwd).normal =
      (cwd.normal.climb (ascent p.components)).descend (descent p.components) := by
  rw [absolutize, relative, if_neg Bool.false_ne_true, normal_normalize,
    normal_join relative absolute, Normal.foldl_push (root_notMem_components relative)]

theorem absolutize_eq_absolutize {p q cwd : Path} : p.absolutize cwd = q.absolutize cwd ↔
    (p.absolutize cwd).normal = (q.absolutize cwd).normal := by
  constructor
  · exact congrArg normal
  · intro h
    rw [← normalize_absolutize p, ← normalize_absolutize q, (normalize_eq _).1,
      (normalize_eq _).1, h]

/-- A path that was normalized leads from a directory to the same place as before just if it is
rooted, climbs above its start by one `..` at most, or starts so close to the root that the pairs of
`..` which are lost make no difference: in the root itself, or one name below it by an odd number of
them. -/
theorem absolutize_normalize_iff {p cwd : Path} (absolute : cwd.isAbsolute = true) :
    let up := ascent p.components
    let depth := cwd.normal.names.length
    p.normalize.absolutize cwd = p.absolutize cwd ↔
      p.isAbsolute = true ∨ up ≤ 1 ∨ depth = 0 ∨ (depth = 1 ∧ up % 2 = 1) := by
  intro up depth
  cases rooted : p.isAbsolute with
  | true => simp [absolutize, rooted]
  | false =>
    obtain ⟨hascent, hdescent⟩ := way_normalize rooted
    have hrelative : p.normalize.isAbsolute = false := by rw [isAbsolute_normalize, rooted]
    rw [absolutize_eq_absolutize, normal_absolutize rooted absolute,
      normal_absolutize hrelative absolute, hascent, hdescent, Normal.descend_inj,
      Normal.climb_eq_climb]
    simp only [Bool.false_eq_true, false_or]
    omega

theorem absolutize_normalize_iff_trial :
    (Path.normalize "src/../../lib/./x.ts").absolutize "/app/work" =
      (Path.ofString "src/../../lib/./x.ts").absolutize "/app/work" :=
  (absolutize_normalize_iff (by decide)).mpr (.inr (.inl (by decide)))

/-- Two `..` in front of a path take each other away, and it leads below the directory. -/
theorem absolutize_normalize_climbing : (Path.normalize "../../x.ts").absolutize "/app/work" ≠
    (Path.ofString "../../x.ts").absolutize "/app/work" := by decide

end LiveLoader.Path
