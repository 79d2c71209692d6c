import Mathlib.Data.List.Perm.Basic
import LiveLoader.Proofs.FileSystem.Tree
import LiveLoader.Proofs.Text.Bytes
import LiveLoader.Routes.Scan

/-!
# What a scan finds

A scan below a directory finds each page once, in an order that the names and kinds of the places
alone decide: it goes through a directory before the files next to it, and through places of one kind
by the bytes of their names.
-/

namespace LiveLoader

open Text FileSystem

/-- The path that names lead to from a path. -/
def Path.descend (p : Path) (names : List (List Char)) : Path :=
  names.foldl (fun p name => p.join ⟨name⟩) p

namespace Routes

namespace Item

theorem le_iff {a b : Item} : a.le b = true ↔
    (a.2.isDirectory = b.2.isDirectory ∧ a.1 ≤ b.1) ∨
      (a.2.isDirectory = true ∧ b.2.isDirectory = false) := by
  unfold le
  rw [← not_lt]
  split
  case isTrue same => simp [same]
  case isFalse other =>
    cases ha : a.2.isDirectory <;> cases hb : b.2.isDirectory <;> simp_all

theorem le_or_le (a b : Item) : (a.le b || b.le a) = true := by
  rw [Bool.or_eq_true, le_iff, le_iff]
  rcases le_total a.1 b.1 with h | h
  all_goals cases a.2.isDirectory <;> cases b.2.isDirectory <;> simp [h]

theorem le_trans (a b c : Item) (hab : a.le b = true) (hbc : b.le c = true) : a.le c = true := by
  rw [le_iff] at *
  rcases hab with ⟨kind, hab⟩ | ⟨ha, hb⟩
  · rcases hbc with ⟨kind', hbc⟩ | ⟨hb, hc⟩
    · exact .inl ⟨kind.trans kind', hab.trans hbc⟩
    · exact .inr ⟨kind.trans hb, hc⟩
  · rcases hbc with ⟨kind', -⟩ | ⟨hb', -⟩
    · exact .inr ⟨ha, kind' ▸ hb⟩
    · exact absurd (hb.symm.trans hb') Bool.false_ne_true

/-- Of two entries with different names the directory comes first, or else the one with the smaller
bytes. -/
theorem before_of_le {a b : Item} (h : a.le b = true) (hne : a.1 ≠ b.1) :
    (a.2.isDirectory = true ∧ b.2.isDirectory = false) ∨
      (a.2.isDirectory = b.2.isDirectory ∧ bytes a.1 < bytes b.1) := by
  rcases le_iff.mp h with ⟨kind, hle⟩ | h
  · exact .inr ⟨kind, bytes_lt_bytes.mpr (lt_of_le_of_ne hle hne)⟩
  · exact .inl h

/-- Only entries with one name come before each other. -/
theorem name_eq {a b : Item} (hab : a.le b = true) (hba : b.le a = true) : a.1 = b.1 := by
  rcases le_iff.mp hab with ⟨kind, hle⟩ | ⟨ha, hb⟩
  · rcases le_iff.mp hba with ⟨-, hle'⟩ | ⟨hb, ha⟩
    · exact le_antisymm hle hle'
    · exact absurd (ha.symm.trans (kind.trans hb)) Bool.false_ne_true
  · rcases le_iff.mp hba with ⟨kind, -⟩ | ⟨hb', -⟩
    · exact absurd (hb.symm.trans (kind.trans ha)) Bool.false_ne_true
    · exact absurd (hb.symm.trans hb') Bool.false_ne_true

end Item

/-- The entries of a directory in scan order. -/
def listing (fs : FileSystem) (dir : Location) : List Item := (fs.children dir).mergeSort Item.le

theorem mem_listing {fs : FileSystem} {dir : Location} {item : Item} :
    item ∈ listing fs dir ↔ (item.1 :: dir, item.2) ∈ fs.entries := by
  rw [listing, List.mem_mergeSort, ← mem_children]

theorem pairwise_listing {fs : FileSystem} (distinct : (fs.entries.map Prod.fst).Nodup)
    (dir : Location) : (listing fs dir).Pairwise fun a b => a.le b = true ∧ a.1 ≠ b.1 := by
  refine (List.pairwise_mergeSort Item.le_trans Item.le_or_le _).and ?_
  exact (pairwise_children distinct dir).perm (List.mergeSort_perm _ _).symm Ne.symm

/-- The entries of a directory come in one order, however they are listed. -/
theorem listing_of_perm {fs fs' : FileSystem} (same : fs'.entries.Perm fs.entries)
    (distinct : (fs.entries.map Prod.fst).Nodup) (dir : Location) :
    listing fs' dir = listing fs dir := by
  refine List.Perm.eq_of_pairwise ?_ (List.pairwise_mergeSort Item.le_trans Item.le_or_le _)
    (List.pairwise_mergeSort Item.le_trans Item.le_or_le _) ?_
  · rintro ⟨name, e⟩ ⟨name', e'⟩ ha hb hab hba
    obtain rfl : name = name' := Item.name_eq hab hba
    have ha := (entry?_eq_some distinct).mpr (same.mem_iff.mp (mem_listing.mp ha))
    have hb := (entry?_eq_some distinct).mpr (mem_listing.mp hb)
    cases ha.symm.trans hb
    rfl
  · exact (List.mergeSort_perm _ _).trans
      ((children_perm same dir).trans (List.mergeSort_perm _ _).symm)

/-- One place comes before another one in a scan below a directory: where their names differ first, a
directory stands against a file, or two of one kind of which the first has the smaller bytes. -/
inductive Precedes (fs : FileSystem) : Location → List (List Char) → List (List Char) → Prop
  | kind {dir a b x y} (ha : fs.isDirectoryAt (a :: dir) = true) (hb : fs.IsFileAt (b :: dir)) :
    Precedes fs dir (a :: x) (b :: y)
  | name {dir a b x y} (same : fs.isDirectoryAt (a :: dir) = fs.isDirectoryAt (b :: dir))
      (less : bytes a < bytes b) : Precedes fs dir (a :: x) (b :: y)
  | inside {dir a x y} (h : Precedes fs (a :: dir) x y) : Precedes fs dir (a :: x) (a :: y)

theorem isDirectoryAt_of_isFileAt {fs : FileSystem} {l : Location} (h : fs.IsFileAt l) :
    fs.isDirectoryAt l = false := by
  obtain ⟨text, h⟩ := h
  rw [isDirectoryAt, h]
  rfl

theorem Precedes.asymm {fs : FileSystem} {dir : Location} {x y : List (List Char)}
    (h : Precedes fs dir x y) : ¬ Precedes fs dir y x := by
  induction h with
  | kind ha hb =>
    have hb := isDirectoryAt_of_isFileAt hb
    intro h
    cases h with
    | kind hb' _ => exact Bool.false_ne_true (hb.symm.trans hb')
    | name same _ => exact Bool.false_ne_true (hb.symm.trans (same.trans ha))
    | inside _ => exact Bool.false_ne_true (hb.symm.trans ha)
  | name same less =>
    intro h
    cases h with
    | kind hb ha =>
      exact Bool.false_ne_true ((isDirectoryAt_of_isFileAt ha).symm.trans (same.trans hb))
    | name _ less' => exact List.lt_asymm less less'
    | inside _ => exact List.lt_irrefl _ less
  | inside _ ih =>
    intro h
    cases h with
    | kind ha hb => exact Bool.false_ne_true ((isDirectoryAt_of_isFileAt hb).symm.trans ha)
    | name _ less => exact List.lt_irrefl _ less
    | inside h => exact ih h

/-- What is at or below an entry comes before what is at or below a later entry. -/
theorem Precedes.of_before {fs : FileSystem} {dir : Location} {a b : Item}
    (ha : fs.entry? (a.1 :: dir) = some a.2) (hb : fs.entry? (b.1 :: dir) = some b.2)
    (plain : ∀ target, b.2 ≠ .link target)
    (h : (a.2.isDirectory = true ∧ b.2.isDirectory = false) ∨
      (a.2.isDirectory = b.2.isDirectory ∧ bytes a.1 < bytes b.1)) (x y : List (List Char)) :
    Precedes fs dir (a.1 :: x) (b.1 :: y) := by
  rcases h with ⟨hdir, hfile⟩ | ⟨same, less⟩
  · refine .kind (by rw [isDirectoryAt, ha]; exact hdir) ?_
    cases he : b.2 with
    | file text => exact ⟨text, hb.trans (congrArg some he)⟩
    | directory =>
      rw [he] at hfile
      cases hfile
    | link target => exact absurd he (plain target)
  · refine .name ?_ less
    rw [isDirectoryAt, isDirectoryAt, ha, hb]
    exact same

/-- The places of the files at an entry, given the places below it. -/
def placesOf (item : Item) (inside : List (List (List Char))) : List (List (List Char)) :=
  match item.2 with
  | .file _ => [[item.1]]
  | .directory => inside.map (item.1 :: ·)
  | .link _ => []

theorem mem_placesOf {item : Item} {inside : List (List (List Char))} {x : List (List Char)} :
    x ∈ placesOf item inside ↔ ((∃ text, item.2 = .file text) ∧ x = [item.1]) ∨
      (item.2 = .directory ∧ ∃ y ∈ inside, x = item.1 :: y) := by
  unfold placesOf
  split
  case h_1 text h => simp [h]
  case h_2 h => simp [h, eq_comm]
  case h_3 target h => simp [h]

/-- The names that lead to the files below a directory without links, in scan order; `fuel` bounds
the nesting. -/
def placesBelow (fs : FileSystem) : Nat → Location → List (List (List Char))
  | 0, _ => []
  | fuel + 1, dir =>
    (listing fs dir).flatMap fun item => placesOf item (placesBelow fs fuel (item.1 :: dir))

section

variable {fs : FileSystem}

/-- Where there are no links the walk finds the files at these places. -/
theorem filesBelow_eq {fuel : Nat} {above : List Location} {dir : Location} {path : Path}
    (tree : fs.IsTree dir) :
    filesBelow fs fuel above dir path = (placesBelow fs fuel dir).map path.descend := by
  induction fuel generalizing above dir path with
  | zero => rfl
  | succ fuel ih =>
    rw [filesBelow, placesBelow, List.map_flatMap]
    refine List.flatMap_congr fun item hitem => ?_
    obtain ⟨name, entry⟩ := item
    have hmem := mem_listing.mp hitem
    cases entry with
    | file text => rfl
    | directory =>
      have hdir : fs.entry? (name :: dir) = some .directory :=
        (entry?_eq_some tree.distinct).mpr hmem
      simp only [ih (tree.child hdir), placesOf, List.map_map]
      rfl
    | link target => exact absurd rfl (tree.plain _ hmem (List.suffix_cons name dir) target)

/-- Each place that is found is the place of a file. -/
theorem isFileAt_of_mem_placesBelow {fuel : Nat} {dir : Location} {x : List (List Char)}
    (distinct : (fs.entries.map Prod.fst).Nodup) (h : x ∈ placesBelow fs fuel dir) :
    fs.IsFileAt (below dir x) := by
  induction fuel generalizing dir x with
  | zero => cases h
  | succ fuel ih =>
    rw [placesBelow, List.mem_flatMap] at h
    obtain ⟨item, hitem, h⟩ := h
    rcases mem_placesOf.mp h with ⟨⟨text, htext⟩, rfl⟩ | ⟨-, y, hy, rfl⟩
    · exact ⟨text, htext ▸ (entry?_eq_some distinct).mpr (mem_listing.mp hitem)⟩
    · rw [below_cons]
      exact ih hy

/-- Each file is found that is not too deep. -/
theorem mem_placesBelow {fuel : Nat} {dir : Location} {x : List (List Char)}
    (tree : fs.IsTree dir) (hlength : x.length ≤ fuel) (h : fs.IsFileAt (below dir x)) :
    x ∈ placesBelow fs fuel dir := by
  have hne : x ≠ [] := by
    rintro rfl
    obtain ⟨text, h⟩ := h
    cases tree.directory.symm.trans h
  obtain ⟨name, names, rfl⟩ := List.exists_cons_of_ne_nil hne
  obtain ⟨text, h⟩ := h
  induction fuel generalizing dir name names with
  | zero => cases hlength
  | succ fuel ih =>
    rw [placesBelow, List.mem_flatMap]
    cases names with
    | nil =>
      exact ⟨(name, .file text), mem_listing.mpr (mem_of_found h),
        mem_placesOf.mpr (.inl ⟨⟨text, rfl⟩, rfl⟩)⟩
    | cons next names =>
      have hdir : fs.entry? (name :: dir) = some .directory := tree.directory_of_below h
      refine ⟨(name, .directory), mem_listing.mpr (mem_of_found hdir), mem_placesOf.mpr ?_⟩
      exact .inr ⟨rfl, next :: names, ih (tree.child hdir) next names
        (Nat.le_of_succ_le_succ hlength) (List.cons_ne_nil _ _) h, rfl⟩

/-- The places are found in the order of the scan. -/
theorem pairwise_placesBelow (fuel : Nat) {dir : Location} (tree : fs.IsTree dir) :
    (placesBelow fs fuel dir).Pairwise (Precedes fs dir) := by
  induction fuel generalizing dir with
  | zero => exact List.Pairwise.nil
  | succ fuel ih =>
    rw [placesBelow, List.pairwise_flatMap]
    constructor
    · intro item hitem
      have hentry := (entry?_eq_some tree.distinct).mpr (mem_listing.mp hitem)
      unfold placesOf
      split
      case h_1 => exact List.pairwise_singleton _ _
      case h_2 hdir =>
        exact List.pairwise_map.mpr ((ih (tree.child (hdir ▸ hentry))).imp Precedes.inside)
      case h_3 => exact List.Pairwise.nil
    · refine (pairwise_listing tree.distinct dir).imp_of_mem ?_
      intro a b ha hb ⟨hle, hne⟩ x hx y hy
      have ha := mem_listing.mp ha
      have hb := mem_listing.mp hb
      have before := Precedes.of_before ((entry?_eq_some tree.distinct).mpr ha)
        ((entry?_eq_some tree.distinct).mpr hb) (tree.plain _ hb (List.suffix_cons b.1 dir))
        (Item.before_of_le hle hne)
      obtain ⟨x, rfl⟩ : ∃ x', x = a.1 :: x' := by
        rcases mem_placesOf.mp hx with ⟨-, rfl⟩ | ⟨-, x', -, rfl⟩ <;> exact ⟨_, rfl⟩
      obtain ⟨y, rfl⟩ : ∃ y', y = b.1 :: y' := by
        rcases mem_placesOf.mp hy with ⟨-, rfl⟩ | ⟨-, y', -, rfl⟩ <;> exact ⟨_, rfl⟩
      exact before x y

theorem length_le_walkBound {l : Location} {names : List (List Char)}
    (h : fs.IsFileAt (below l names)) : names.length ≤ walkBound fs := by
  obtain ⟨text, h⟩ := h
  cases hl : below l names with
  | nil =>
    rw [hl] at h
    cases h
  | cons name above =>
    rw [hl] at h
    have hdepth := length_le_depth (mem_of_found h)
    rw [← hl, length_below] at hdepth
    have hbound : fs.depth + 1 ≤ walkBound fs := Nat.le_mul_of_pos_left _ (Nat.succ_pos _)
    omega

/-- The places of all files below a directory, in scan order. -/
def places (fs : FileSystem) (dir : Location) : List (List (List Char)) :=
  placesBelow fs (walkBound fs) dir

theorem mem_places {dir : Location} {x : List (List Char)} (tree : fs.IsTree dir) :
    x ∈ places fs dir ↔ fs.IsFileAt (below dir x) :=
  ⟨isFileAt_of_mem_placesBelow tree.distinct,
    fun h => mem_placesBelow tree (length_le_walkBound h) h⟩

theorem filesAt_eq {pagesDir : Path} {dir : Location} (tree : fs.IsTree dir) :
    filesAt fs pagesDir dir = (places fs dir).map pagesDir.descend := by
  unfold filesAt
  rw [tree.directory]
  exact filesBelow_eq tree

end

section

variable {fs fs' : FileSystem} (same : fs'.entries.Perm fs.entries)

include same

theorem walkBound_of_perm : walkBound fs' = walkBound fs := by
  rw [walkBound, walkBound, depth_of_perm same, same.length_eq]

theorem placesBelow_of_perm (distinct : (fs.entries.map Prod.fst).Nodup) (fuel : Nat)
    (dir : Location) : placesBelow fs' fuel dir = placesBelow fs fuel dir := by
  induction fuel generalizing dir with
  | zero => rfl
  | succ fuel ih => simp only [placesBelow, listing_of_perm same distinct, ih]

theorem places_of_perm (distinct : (fs.entries.map Prod.fst).Nodup) (dir : Location) :
    places fs' dir = places fs dir := by
  rw [places, places, walkBound_of_perm same, placesBelow_of_perm same distinct]

end

section

variable [DecidableEq κ] (key : α → κ)

/-- The items whose key is neither among the keys `seen` nor that of an item before. -/
def keepFirst : List κ → List α → List α
  | _, [] => []
  | seen, x :: xs =>
    if key x ∈ seen then keepFirst seen xs else x :: keepFirst (key x :: seen) xs

theorem keepFirst_sublist (seen : List κ) (xs : List α) : (keepFirst key seen xs).Sublist xs := by
  fun_induction keepFirst key seen xs with
  | case1 => exact List.Sublist.refl []
  | case2 seen x xs _ ih => exact ih.cons x
  | case3 seen x xs _ ih => exact ih.cons_cons x

theorem keepFirst_map (f : β → α) (seen : List κ) (xs : List β) :
    keepFirst key seen (xs.map f) = (keepFirst (fun x => key (f x)) seen xs).map f := by
  induction xs generalizing seen with
  | nil => rfl
  | cons x xs ih =>
    rw [List.map_cons, keepFirst, keepFirst]
    split
    · exact ih seen
    · rw [ih, List.map_cons]

theorem key_notMem_of_mem_keepFirst {seen : List κ} {xs : List α} {x : α}
    (h : x ∈ keepFirst key seen xs) : key x ∉ seen := by
  fun_induction keepFirst key seen xs with
  | case1 => cases h
  | case2 seen y xs _ ih => exact ih h
  | case3 seen y xs hy ih =>
    rcases List.mem_cons.mp h with rfl | h
    · exact hy
    · exact fun hseen => ih h (List.mem_cons_of_mem _ hseen)

theorem nodup_map_keepFirst (seen : List κ) (xs : List α) :
    ((keepFirst key seen xs).map key).Nodup := by
  fun_induction keepFirst key seen xs with
  | case1 => exact List.nodup_nil
  | case2 seen x xs _ ih => exact ih
  | case3 seen x xs _ ih =>
    rw [List.map_cons, List.nodup_cons]
    refine ⟨fun h => ?_, ih⟩
    obtain ⟨y, hy, heq⟩ := List.mem_map.mp h
    exact key_notMem_of_mem_keepFirst key hy (heq ▸ List.mem_cons_self)

/-- In a strict order an item is kept unless its key is known or that of an item before. -/
theorem mem_keepFirst {R : α → α → Prop} (asymm : ∀ x y, R x y → ¬ R y x) {seen : List κ}
    {xs : List α} (ordered : xs.Pairwise R) {x : α} : x ∈ keepFirst key seen xs ↔
      x ∈ xs ∧ key x ∉ seen ∧ ∀ y ∈ xs, R y x → key y ≠ key x := by
  induction xs generalizing seen with
  | nil => simp [keepFirst]
  | cons z xs ih =>
    obtain ⟨hz, ordered⟩ := List.pairwise_cons.mp ordered
    rw [keepFirst]
    split
    case isTrue known =>
      rw [ih ordered]
      constructor
      · rintro ⟨hx, hnew, hfirst⟩
        refine ⟨List.mem_cons_of_mem z hx, hnew, fun y hy hyx => ?_⟩
        rcases List.mem_cons.mp hy with rfl | hy
        · exact fun heq => hnew (heq ▸ known)
        · exact hfirst y hy hyx
      · rintro ⟨hx, hnew, hfirst⟩
        refine ⟨?_, hnew, fun y hy => hfirst y (List.mem_cons_of_mem z hy)⟩
        rcases List.mem_cons.mp hx with rfl | hx
        · exact absurd known hnew
        · exact hx
    case isFalse new =>
      rw [List.mem_cons, ih ordered, List.mem_cons, List.mem_cons, not_or]
      constructor
      · rintro (rfl | ⟨hx, ⟨hne, hnew⟩, hfirst⟩)
        · refine ⟨.inl rfl, new, fun y hy hyx => ?_⟩
          rcases List.mem_cons.mp hy with rfl | hy
          · exact absurd hyx (asymm _ _ hyx)
          · exact absurd hyx (asymm _ _ (hz y hy))
        · refine ⟨.inr hx, hnew, fun y hy hyx => ?_⟩
          rcases List.mem_cons.mp hy with rfl | hy
          · exact Ne.symm hne
          · exact hfirst y hy hyx
      · rintro ⟨rfl | hx, hnew, hfirst⟩
        · exact .inl rfl
        · refine .inr ⟨hx, ⟨?_, hnew⟩, fun y hy => hfirst y (List.mem_cons_of_mem z hy)⟩
          exact (hfirst z List.mem_cons_self (hz x hx)).symm

end

/-- The page at a place. -/
def pageAt (pagesDir : Path) (x : List (List Char)) : Page :=
  ⟨routeKey pagesDir (pagesDir.descend x), pagesDir.descend x⟩

def pageKey (pagesDir : Path) (x : List (List Char)) : List Char := (pageAt pagesDir x).key

/-- Of files with one key the first is kept. -/
theorem value_distinctPages_eq (pagesDir : Path) (seen : List (List Char)) (files : List Path) :
    (distinctPages pagesDir seen files).value =
      (keepFirst (routeKey pagesDir) seen files).map fun file => ⟨routeKey pagesDir file, file⟩ := by
  induction files generalizing seen with
  | nil => rfl
  | cons file files ih =>
    rw [distinctPages, keepFirst]
    split
    case isTrue known => rw [Logged.value_bind, ih]
    case isFalse new =>
      rw [Logged.value_bind, ih]
      rfl

theorem value_distinctPages (pagesDir : Path) (seen : List (List Char))
    (xs : List (List (List Char))) :
    (distinctPages pagesDir seen (xs.map pagesDir.descend)).value =
      (keepFirst (pageKey pagesDir) seen xs).map (pageAt pagesDir) := by
  rw [value_distinctPages_eq, keepFirst_map, List.map_map]
  rfl

/-- The pages of a scan are files under their keys, and no key is there twice. -/
theorem exists_scan (fs : FileSystem) (pagesDir : Path) : ∃ files : List Path,
    (scan fs pagesDir).value = files.map (fun file => ⟨routeKey pagesDir file, file⟩) ∧
      (files.map (routeKey pagesDir)).Nodup := by
  unfold scan
  cases fs.locate pagesDir with
  | error e => exact ⟨[], rfl, List.nodup_nil⟩
  | ok l =>
    exact ⟨_, value_distinctPages_eq pagesDir [] _, nodup_map_keepFirst (routeKey pagesDir) [] _⟩

/-- The places of the pages below a directory, in scan order. -/
def pagePlaces (fs : FileSystem) (pagesDir : Path) (dir : Location) : List (List (List Char)) :=
  (places fs dir).filter fun x => isPage (pagesDir.descend x)

theorem filesAt_filter_isPage {fs : FileSystem} {pagesDir : Path} {dir : Location}
    (tree : fs.IsTree dir) : (filesAt fs pagesDir dir).filter isPage =
      (pagePlaces fs pagesDir dir).map pagesDir.descend := by
  rw [filesAt_eq tree, List.filter_map]
  rfl

theorem scan_of_located {fs : FileSystem} {pagesDir : Path} {dir : Location}
    (located : fs.locate pagesDir = .ok dir) (tree : fs.IsTree dir) : scan fs pagesDir =
      distinctPages pagesDir [] ((pagePlaces fs pagesDir dir).map pagesDir.descend) := by
  rw [scan, located, ← filesAt_filter_isPage tree]

/-- A scan of a tree of directories and files gives the pages at a list of places: those of the files
that are pages, unless a page before has the same key. Their keys are distinct, they come in scan
order, and neither they nor the warnings depend on the order in which the entries are listed. -/
theorem scan_of_tree {fs : FileSystem} {pagesDir : Path} {dir : Location}
    (located : fs.locate pagesDir = .ok dir) (tree : fs.IsTree dir) :
    (∃ found : List (List (List Char)),
      (scan fs pagesDir).value = found.map (pageAt pagesDir) ∧
      (∀ x, x ∈ found ↔
        (fs.IsFileAt (below dir x) ∧ isPage (pagesDir.descend x) = true) ∧
          ∀ y, fs.IsFileAt (below dir y) → isPage (pagesDir.descend y) = true →
            Precedes fs dir y x → pageKey pagesDir y ≠ pageKey pagesDir x) ∧
      found.Pairwise (Precedes fs dir)) ∧
    ((scan fs pagesDir).value.map Page.key).Nodup ∧
    ∀ fs' : FileSystem, fs'.workingDirectory = fs.workingDirectory →
      fs'.entries.Perm fs.entries → scan fs' pagesDir = scan fs pagesDir := by
  have hpages : ∀ x, x ∈ pagePlaces fs pagesDir dir ↔
      fs.IsFileAt (below dir x) ∧ isPage (pagesDir.descend x) = true := fun x => by
    rw [pagePlaces, List.mem_filter, mem_places tree]
  have ordered : (pagePlaces fs pagesDir dir).Pairwise (Precedes fs dir) :=
    (pairwise_placesBelow _ tree).filter _
  have hvalue := value_distinctPages pagesDir [] (pagePlaces fs pagesDir dir)
  rw [← scan_of_located located tree] at hvalue
  refine ⟨⟨_, hvalue, fun x => ?_, ordered.sublist (keepFirst_sublist _ _ _)⟩, ?_, ?_⟩
  · rw [mem_keepFirst _ (fun _ _ => Precedes.asymm) ordered, hpages]
    simp only [List.not_mem_nil, not_false_eq_true, true_and, hpages, and_imp]
  · rw [hvalue, List.map_map]
    exact nodup_map_keepFirst (pageKey pagesDir) [] _
  · intro fs' cwd same
    have located' : fs'.locate pagesDir = .ok dir :=
      (locate_of_perm same tree.distinct cwd pagesDir).trans located
    rw [scan_of_located located tree, scan_of_located located' (tree.of_perm same), pagePlaces,
      pagePlaces, places_of_perm same tree.distinct]

namespace Trial

/-- A page and the index of a directory have one key; a sheet and a declaration are no pages. -/
def files : FileSystem :=
  ⟨"/", [(["p".toList], .directory), (["a".toList, "p".toList], .directory),
    (["é".toList, "p".toList], .directory), (["a.tsx".toList, "p".toList], .file (some [])),
    (["b.ts".toList, "p".toList], .file (some [])), (["z.css".toList, "p".toList], .file none),
    (["index.ts".toList, "a".toList, "p".toList], .file (some [])),
    (["[id].js".toList, "é".toList, "p".toList], .file (some [])),
    (["c.d.ts".toList, "é".toList, "p".toList], .file (some []))]⟩

theorem isTree : files.IsTree ["p".toList] where
  distinct := by decide
  above := by decide
  directory := by decide
  plain := by simp [files]

theorem places_eq : places files ["p".toList] =
    [["a".toList, "index.ts".toList], ["é".toList, "[id].js".toList], ["é".toList, "c.d.ts".toList],
      ["a.tsx".toList], ["b.ts".toList], ["z.css".toList]] := by
  have root : listing files ["p".toList] =
      [("a".toList, .directory), ("é".toList, .directory), ("a.tsx".toList, .file (some [])),
        ("b.ts".toList, .file (some [])), ("z.css".toList, .file none)] :=
    (List.mergeSort_of_pairwise (by decide +kernel)).trans (by rfl)
  have latin : listing files ["a".toList, "p".toList] = [("index.ts".toList, .file (some []))] :=
    (List.mergeSort_of_pairwise (by decide +kernel)).trans (by rfl)
  have accented : listing files ["é".toList, "p".toList] =
      [("[id].js".toList, .file (some [])), ("c.d.ts".toList, .file (some []))] :=
    (List.mergeSort_of_pairwise (by decide +kernel)).trans (by rfl)
  have bound : walkBound files = 38 + 1 + 1 := by rfl
  rw [places, bound]
  generalize 38 = fuel
  simp only [placesBelow, root, latin, accented, placesOf, List.flatMap_cons, List.flatMap_nil]
  rfl

/-- The same entries in another order. -/
def shuffled : FileSystem := ⟨"/", files.entries.reverse⟩

end Trial

theorem scan_of_tree_trial :
    (scan Trial.files "/p").value =
      [⟨"/a".toList, "/p/a/index.ts"⟩, ⟨"/é/[id]".toList, "/p/é/[id].js"⟩, ⟨"/b".toList, "/p/b.ts"⟩] ∧
    (∃ found : List (List (List Char)),
      found.map (Path.descend "/p") = ["/p/a/index.ts", "/p/é/[id].js", "/p/b.ts"] ∧
      (∀ x ∈ found, Trial.files.IsFileAt (below ["p".toList] x)) ∧
      found.Pairwise (Precedes Trial.files ["p".toList])) ∧
    ((scan Trial.files "/p").value.map Page.key).Nodup ∧
    scan Trial.shuffled "/p" = scan Trial.files "/p" := by
  have located : Trial.files.locate "/p" = .ok ["p".toList] := by decide +kernel
  have pages : (scan Trial.files "/p").value = [⟨"/a".toList, "/p/a/index.ts"⟩,
      ⟨"/é/[id]".toList, "/p/é/[id].js"⟩, ⟨"/b".toList, "/p/b.ts"⟩] := by
    rw [scan_of_located located Trial.isTree, pagePlaces, Trial.places_eq]
    decide +kernel
  obtain ⟨⟨found, value, members, ordered⟩, nodup, unordered⟩ := scan_of_tree located Trial.isTree
  have files : found.map (Path.descend "/p") = (scan Trial.files "/p").value.map Page.file := by
    rw [value, List.map_map]
    rfl
  exact ⟨pages, ⟨found, by rw [files, pages]; rfl, fun x hx => ((members x).mp hx).1.1, ordered⟩,
    nodup, unordered Trial.shuffled rfl (List.reverse_perm _)⟩

end Routes

end LiveLoader
