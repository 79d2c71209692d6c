import Mathlib.Data.List.Perm.Basic
import LiveLoader.FileSystem.Edit

/-!
# Trees of directories

In a file system that comes from a disk each place has one entry and stands in a directory. What is
found there does not depend on the order in which the entries are listed.
-/

namespace LiveLoader.FileSystem

/-- The location that names lead down to. -/
def below : Location → List (List Char) → Location
  | l, [] => l
  | l, name :: names => below (name :: l) names

@[simp] theorem below_nil (l : Location) : below l [] = l := rfl

@[simp] theorem below_cons (l : Location) (name : List Char) (names : List (List Char)) :
    below l (name :: names) = below (name :: l) names := rfl

theorem length_below (l : Location) (names : List (List Char)) :
    (below l names).length = l.length + names.length := by
  induction names generalizing l with
  | nil => rfl
  | cons name names ih =>
    rw [below_cons, ih, List.length_cons, List.length_cons]
    omega

/-- A file stands at the location. -/
def IsFileAt (fs : FileSystem) (l : Location) : Prop := ∃ text, fs.entry? l = some (.file text)

/-- Below the directory at `root` there are directories and files only. -/
structure IsTree (fs : FileSystem) (root : Location) : Prop where
  /-- No place is listed twice. -/
  distinct : (fs.entries.map Prod.fst).Nodup
  /-- Everything stands in a directory. -/
  above : ∀ x ∈ fs.entries, fs.entry? x.1.tail = some .directory
  directory : fs.entry? root = some .directory
  /-- Nothing below the root is a link. -/
  plain : ∀ x ∈ fs.entries, root <:+ x.1 → ∀ target, x.2 ≠ .link target

section

variable {fs : FileSystem}

theorem mem_of_found {name : List Char} {l : Location} {e : Entry}
    (h : fs.entry? (name :: l) = some e) : (name :: l, e) ∈ fs.entries := by
  obtain ⟨front, back, hentries, -⟩ := List.lookup_eq_some_iff.mp h
  rw [hentries]
  exact List.mem_append_right _ List.mem_cons_self

/-- With one entry for each place, what is found there is what is listed. -/
theorem lookup_of_mem {entries : List (Location × Entry)} (distinct : (entries.map Prod.fst).Nodup)
    {l : Location} {e : Entry} (h : (l, e) ∈ entries) : entries.lookup l = some e := by
  induction entries with
  | nil => cases h
  | cons x entries ih =>
    rw [List.map_cons, List.nodup_cons] at distinct
    rcases List.mem_cons.mp h with rfl | h
    · exact List.lookup_cons_self
    · have hne : l ≠ x.1 := by
        rintro rfl
        exact distinct.1 (List.mem_map.mpr ⟨_, h, rfl⟩)
      rw [List.lookup_cons, beq_eq_false_iff_ne.mpr hne]
      exact ih distinct.2 h

theorem entry?_eq_some (distinct : (fs.entries.map Prod.fst).Nodup) {name : List Char}
    {l : Location} {e : Entry} :
    fs.entry? (name :: l) = some e ↔ (name :: l, e) ∈ fs.entries :=
  ⟨mem_of_found, lookup_of_mem distinct⟩

theorem IsTree.child {root : Location} (tree : fs.IsTree root) {name : List Char}
    (h : fs.entry? (name :: root) = some .directory) : fs.IsTree (name :: root) where
  distinct := tree.distinct
  above := tree.above
  directory := h
  plain x hx hroot := tree.plain x hx ((List.suffix_cons name root).trans hroot)

/-- The place above an entry is a directory. -/
theorem IsTree.directory_of_entry? {root : Location} (tree : fs.IsTree root) {name : List Char}
    {l : Location} {e : Entry} (h : fs.entry? (name :: l) = some e) :
    fs.entry? l = some .directory :=
  tree.above _ (mem_of_found h)

/-- All places above an entry are directories. -/
theorem IsTree.directory_of_below {root : Location} (tree : fs.IsTree root) {l : Location}
    {name : List Char} {names : List (List Char)} {e : Entry}
    (h : fs.entry? (below l (name :: names)) = some e) : fs.entry? l = some .directory := by
  induction names generalizing l name e with
  | nil => exact tree.directory_of_entry? h
  | cons next names ih => exact tree.directory_of_entry? (ih h)

theorem mem_children {l : Location} {name : List Char} {e : Entry} :
    (name, e) ∈ fs.children l ↔ (name :: l, e) ∈ fs.entries := by
  simp only [children, List.mem_filterMap, Prod.exists]
  constructor
  · rintro ⟨k, e', hmem, h⟩
    split at h
    case h_1 =>
      split at h
      case isTrue hparent =>
        cases h
        rwa [← hparent]
      case isFalse => cases h
    case h_2 => cases h
  · intro h
    exact ⟨name :: l, e, h, if_pos rfl⟩

/-- No two entries of a directory have one name. -/
theorem pairwise_children (distinct : (fs.entries.map Prod.fst).Nodup) (l : Location) :
    (fs.children l).Pairwise fun a b => a.1 ≠ b.1 := by
  rw [List.nodup_iff_pairwise_ne, List.pairwise_map] at distinct
  refine distinct.filterMap _ ?_
  rintro ⟨k, e⟩ ⟨k', e'⟩ hne x hx y hy
  dsimp only at hne hx hy
  split at hx
  case h_2 => cases hx
  case h_1 =>
    split at hy
    case h_2 => cases hy
    case h_1 =>
      split at hx
      case isFalse => cases hx
      case isTrue hl =>
        split at hy
        case isFalse => cases hy
        case isTrue hl' =>
          cases hx
          cases hy
          rintro rfl
          exact hne (by rw [hl, hl'])

theorem le_foldl_max (entries : List (Location × Entry)) (n : Nat) :
    n ≤ entries.foldl (fun n (l, _) => max n l.length) n ∧
      ∀ x ∈ entries, x.1.length ≤ entries.foldl (fun n (l, _) => max n l.length) n := by
  induction entries generalizing n with
  | nil => simp
  | cons x entries ih =>
    obtain ⟨hn, hmem⟩ := ih (max n x.1.length)
    rw [List.foldl_cons]
    refine ⟨Nat.le_trans (Nat.le_max_left _ _) hn, fun y hy => ?_⟩
    rcases List.mem_cons.mp hy with rfl | hy
    · exact Nat.le_trans (Nat.le_max_right _ _) hn
    · exact hmem y hy

/-- No entry stands deeper than the depth of the file system. -/
theorem length_le_depth {l : Location} {e : Entry} (h : (l, e) ∈ fs.entries) :
    l.length ≤ fs.depth := (le_foldl_max fs.entries 0).2 _ h

end

section

variable {fs fs' : FileSystem} (same : fs'.entries.Perm fs.entries)

include same

theorem entry?_of_perm (distinct : (fs.entries.map Prod.fst).Nodup) (l : Location) :
    fs'.entry? l = fs.entry? l := by
  cases l with
  | nil => rfl
  | cons name l =>
    have distinct' : (fs'.entries.map Prod.fst).Nodup := (same.map Prod.fst).nodup_iff.mpr distinct
    ext e
    rw [entry?_eq_some distinct, entry?_eq_some distinct', same.mem_iff]

theorem IsTree.of_perm {root : Location} (tree : fs.IsTree root) : fs'.IsTree root where
  distinct := (same.map Prod.fst).nodup_iff.mpr tree.distinct
  above x hx := (entry?_of_perm same tree.distinct _).trans (tree.above x (same.mem_iff.mp hx))
  directory := (entry?_of_perm same tree.distinct _).trans tree.directory
  plain x hx := tree.plain x (same.mem_iff.mp hx)

theorem children_perm (l : Location) : (fs'.children l).Perm (fs.children l) := same.filterMap _

theorem depth_of_perm : fs'.depth = fs.depth :=
  same.foldl_eq' (fun _ _ _ _ n => Nat.max_right_comm n _ _) 0

theorem walk_of_perm (distinct : (fs.entries.map Prod.fst).Nodup) (l : Location)
    (ps : List (List Char)) : fs'.walk l ps = fs.walk l ps := by
  induction ps generalizing l with
  | nil => rfl
  | cons piece rest ih => simp only [walk, entry?_of_perm same distinct, ih]

theorem follow_of_perm (distinct : (fs.entries.map Prod.fst).Nodup) (links : Nat) (l : Location)
    (ps : List (List Char)) : fs'.follow links l ps = fs.follow links l ps := by
  induction links generalizing l ps with
  | zero => unfold follow; rw [walk_of_perm same distinct]
  | succ links ih => unfold follow; simp only [walk_of_perm same distinct, ih]

theorem locate_of_perm (distinct : (fs.entries.map Prod.fst).Nodup)
    (cwd : fs'.workingDirectory = fs.workingDirectory) (p : Path) : fs'.locate p = fs.locate p := by
  unfold locate fromRoot
  rw [cwd, follow_of_perm same distinct]

end

end LiveLoader.FileSystem
