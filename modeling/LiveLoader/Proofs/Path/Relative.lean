import LiveLoader.Path.Relative
import LiveLoader.Proofs.Path.Climb
import Mathlib.Data.List.Induction

/-!
# Relative paths lead back

The way from one normal path to another climbs over what the first does not share with the second,
and goes down what the second does not share with the first. Pushed onto the first path, the climb
takes back the pieces that it climbs over, one by one, so the way leads to the second path. There is
no such way only if it would have to climb over a `..` in front; the other path is then its own way.
-/

namespace LiveLoader

theorem Component.ofName_eq_parent {p : List Char} : ofName p = parent ↔ p = ['.', '.'] := by
  unfold ofName
  split <;> simp_all

theorem Component.ofName_ne_current (p : List Char) : ofName p ≠ current := by
  unfold ofName
  split <;> simp

theorem Component.ofName_injective : Function.Injective ofName :=
  Function.LeftInverse.injective text_ofName

namespace Path

open Text

/-- The lists do not begin with the same item. -/
def Parted (as bs : List α) : Prop := ∀ a, as.head? = some a → bs.head? ≠ some a

/-- Two lists share what they begin with up to where they part. -/
theorem exists_parted (as bs : List α) :
    ∃ shared as' bs', as = shared ++ as' ∧ bs = shared ++ bs' ∧ Parted as' bs' := by
  induction as generalizing bs with
  | nil => exact ⟨[], [], bs, rfl, rfl, by simp [Parted]⟩
  | cons a as ih =>
    cases bs with
    | nil => exact ⟨[], a :: as, [], rfl, rfl, by simp [Parted]⟩
    | cons b bs =>
      by_cases h : a = b
      · obtain ⟨shared, as', bs', rfl, rfl, hparted⟩ := ih bs
        exact ⟨a :: shared, as', bs', rfl, by rw [h, List.cons_append], hparted⟩
      · exact ⟨[], a :: as, b :: bs, rfl, rfl, by simpa [Parted] using Ne.symm h⟩

theorem Parted.map {as bs : List α} (h : Parted as bs) {f : α → β} (hf : Function.Injective f) :
    Parted (as.map f) (bs.map f) := by
  intro c ha hb
  rw [List.head?_map, Option.map_eq_some_iff] at ha hb
  obtain ⟨a, ha, rfl⟩ := ha
  obtain ⟨b, hb, heq⟩ := hb
  exact h a ha (hf heq ▸ hb)

theorem way?_append (shared ts bs : List Component) :
    way? (shared ++ ts) (shared ++ bs) true = way? ts bs true := by
  induction shared with
  | nil => rfl
  | cons c shared ih => simpa [way?] using ih

theorem way?_nil (bs : List Component) (same : Bool) :
    way? [] bs same = some (List.replicate bs.length .parent) := by
  induction bs generalizing same with
  | nil => rfl
  | cons b bs ih => simp [way?, ih, List.replicate_succ]

/-- What is left of the start is climbed over; if that begins with a `..`, there is a way only where
nothing is left of the target. -/
theorem way?_of_parted {ts bs : List Component} (parted : Parted ts bs)
    (hcurrent : .current ∉ bs) : way? ts bs true =
      if ts ≠ [] ∧ bs.head? = some .parent then none
      else some (List.replicate bs.length .parent ++ ts) := by
  cases ts with
  | nil => simp [way?_nil]
  | cons t ts =>
    cases bs with
    | nil => rfl
    | cons b bs =>
      have hne : t ≠ b := fun h => parted t rfl (h ▸ rfl)
      have hb : b ≠ .current := fun h => hcurrent (h ▸ List.mem_cons_self)
      by_cases hparent : b = .parent
      · simp [way?, hparent, hparent ▸ hne]
      · simp [way?, hne, hb, hparent, List.replicate_succ]

namespace Normal

variable {n m : Normal}

/-- A `..` takes the last component back, if that is not the root. -/
theorem components_push_parent {cs : List Component} {c : Component}
    (h : n.components = cs ++ [c]) (hc : c ≠ .root) : (n.push .parent).components = cs := by
  have hlast : n.components.getLast? = some c := by rw [h, List.getLast?_concat]
  have hfront : n.components.dropLast = cs := by rw [h, List.dropLast_concat]
  clear h
  rcases n with ⟨r, up, names⟩
  rcases List.eq_nil_or_concat' names with rfl | ⟨ms, name, rfl⟩
  · cases r <;> cases up <;> simp_all [components, push]
  · have hpush : push ⟨r, up, ms ++ [name]⟩ .parent = ⟨r, up, ms⟩ :=
      push_name_parent ⟨r, up, ms⟩ name
    rw [hpush, ← hfront]
    simp only [components, List.map_append, List.map_singleton, ← List.append_assoc,
      List.dropLast_concat]

/-- A climb takes back as many components as it has steps. -/
theorem components_climb {cs bs : List Component} (h : n.components = cs ++ bs)
    (hroot : .root ∉ bs) : (n.climb bs.length).components = cs := by
  induction bs using List.reverseRecOn generalizing n with
  | nil => simpa [climb] using h
  | append_singleton bs b ih =>
    rw [List.mem_append, List.mem_singleton, not_or] at hroot
    rw [← List.append_assoc] at h
    rw [List.length_append, List.length_singleton, climb]
    exact ih (components_push_parent h (Ne.symm hroot.2)) hroot.1

theorem foldl_push_replicate (n : Normal) (k : Nat) :
    (List.replicate k Component.parent).foldl push n = n.climb k := by
  induction k generalizing n with
  | zero => rfl
  | succ k ih => rw [List.replicate_succ, List.foldl_cons, ih, climb]

/-- Up to what two normal paths share, and down to the second one. -/
theorem foldl_push_way {shared bs ts : List Component} (hn : n.components = shared ++ bs)
    (hm : m.components = shared ++ ts) (hroot : .root ∉ bs) :
    (List.replicate bs.length Component.parent ++ ts).foldl push n = m := by
  have hclimb : (n.climb bs.length).components = shared := components_climb hn hroot
  calc (List.replicate bs.length Component.parent ++ ts).foldl push n
      = ts.foldl push (n.climb bs.length) := by rw [List.foldl_append, foldl_push_replicate]
    _ = ts.foldl push (shared.foldl push empty) := by rw [← hclimb, foldl_push_components]
    _ = m := by rw [← List.foldl_append, ← hm, foldl_push_components]

theorem Valid.components_eq (h : n.Valid) :
    n.components = (if n.rooted then [.root] else []) ++ n.pieces.map Component.ofName := by
  rw [← components_path h, path, components_spell h.isPiece]

end Normal

theorem components_normal {p : Path} (absolute : p.isAbsolute = true) :
    p.normal.components = .root :: p.normal.pieces.map Component.ofName := by
  rw [p.normalize_eq.2.components_eq, rooted_normal, absolute, if_pos rfl, List.singleton_append]

theorem ofComponents_map {ps : List (List Char)} (h : ∀ p ∈ ps, IsPiece p) :
    ofComponents (ps.map Component.ofName) = spell false ps := by
  induction ps using List.reverseRecOn with
  | nil => rfl
  | append_singleton ps p ih =>
    have hps : ∀ q ∈ ps, IsPiece q := fun q hq => h q (List.mem_append_left _ hq)
    have hp : IsPiece p := h p (by simp)
    have ih := ih hps
    unfold ofComponents at ih ⊢
    rw [List.map_append, List.foldl_append, ih]
    simpa using join_spell hps hp

section

variable {base target : Path} {shared bs ts : List (List Char)}
  (hbase : base.isAbsolute = true) (htarget : target.isAbsolute = true)
  (hb : base.normal.pieces = shared ++ bs) (ht : target.normal.pieces = shared ++ ts)
  (parted : Parted ts bs)

include ht

theorem isPiece_of_way : ∀ p ∈ List.replicate bs.length ['.', '.'] ++ ts, IsPiece p := by
  intro p hp
  rcases List.mem_append.mp hp with hp | hp
  · rw [List.eq_of_mem_replicate hp]
    exact .parent
  · exact target.normalize_eq.2.isPiece p (ht ▸ List.mem_append_right _ hp)

include hbase htarget hb

/-- Where a relative path leads from its base. -/
theorem foldl_push_spell :
    (spell false (List.replicate bs.length ['.', '.'] ++ ts)).components.foldl Normal.push
      base.normal = target.normal := by
  have hroot : Component.root ∉ bs.map Component.ofName := by
    intro hmem
    obtain ⟨p, -, he⟩ := List.mem_map.mp hmem
    exact Component.ofName_ne_root p he
  have hn : base.normal.components =
      (.root :: shared.map Component.ofName) ++ bs.map Component.ofName := by
    rw [components_normal hbase, hb, List.map_append, List.cons_append]
  have hm : target.normal.components =
      (.root :: shared.map Component.ofName) ++ ts.map Component.ofName := by
    rw [components_normal htarget, ht, List.map_append, List.cons_append]
  have hway := Normal.foldl_push_way hn hm hroot
  rw [components_spell (isPiece_of_way ht)]
  simpa [Component.ofName] using hway

include parted

/-- There is no relative path over a `..` in front of the base that the target does not share. -/
theorem relative_of_parted : relative base target =
    if ts ≠ [] ∧ bs.head? = some ['.', '.'] then target.normalize
    else spell false (List.replicate bs.length ['.', '.'] ++ ts) := by
  have hcurrent : Component.current ∉ bs.map Component.ofName := by
    intro hmem
    obtain ⟨p, -, he⟩ := List.mem_map.mp hmem
    exact Component.ofName_ne_current p he
  have hway := way?_of_parted (parted.map Component.ofName_injective) hcurrent
  have hmap : List.replicate (bs.map Component.ofName).length Component.parent
      ++ ts.map Component.ofName =
        (List.replicate bs.length ['.', '.'] ++ ts).map Component.ofName := by
    simp [Component.ofName]
  have hhead : (bs.map Component.ofName).head? = some .parent ↔ bs.head? = some ['.', '.'] := by
    simp [Component.ofName_eq_parent]
  have hrelative : relative base target =
      ((way? (ts.map Component.ofName) (bs.map Component.ofName) true).map ofComponents).getD
        target.normalize := by
    rw [← way?_append (.root :: shared.map Component.ofName)]
    simp only [relative, difference?, isAbsolute_normalize, hbase, htarget,
      components_normalize, components_normal, hb, ht, List.map_append, dropCurrent,
      List.cons_append]
    rfl
  rw [hrelative, hway, hmap]
  by_cases h : ts ≠ [] ∧ bs.head? = some ['.', '.']
  · rw [if_pos h, if_pos ⟨by simpa using h.1, hhead.mpr h.2⟩]
    rfl
  · rw [if_neg h, if_neg fun hmap => h ⟨by simpa using hmap.1, hhead.mp hmap.2⟩]
    exact ofComponents_map (isPiece_of_way ht)

end

/-- The relative path from one place to another leads back to the other. -/
theorem normalize_join_relative {base target : Path} (hbase : base.isAbsolute = true)
    (htarget : target.isAbsolute = true) :
    (base.normalize.join (relative base target)).normalize = target.normalize := by
  have hrooted : base.normalize.isAbsolute = true := by rw [isAbsolute_normalize, hbase]
  obtain ⟨shared, ts, bs, ht, hb, parted⟩ := exists_parted target.normal.pieces base.normal.pieces
  rw [relative_of_parted hbase htarget hb ht parted]
  split
  case isTrue =>
    have hjoin : base.normalize.join target.normalize = target.normalize := by
      rw [join, isAbsolute_normalize, htarget, if_pos rfl]
    rw [hjoin, normalize_normalize]
  case isFalse =>
    have hrelative : (spell false (List.replicate bs.length ['.', '.'] ++ ts)).isAbsolute = false :=
      isAbsolute_spell (isPiece_of_way ht)
    rw [(normalize_eq _).1, normal_join hrelative hrooted, normal_normalize,
      foldl_push_spell hbase htarget hb ht, (normalize_eq target).1]

end Path

end LiveLoader
