import LiveLoader.Proofs.Syntax.Span
import LiveLoader.Text.Splice

/-!
# Splicing from left to right

Replacements at places that do not overlap can be read off from left to right: each part is exchanged
once, and what stands between them stays. Made from the back to the front, each replacement finds its
place inside the text as it is then.
-/

namespace LiveLoader.Text

open Syntax (Span)

namespace Replacement

/-- Makes one replacement, provided that its place lies in the text. -/
def applyIn? (s : List Char) (r : Replacement) : Option (List Char) :=
  if r.span.start ≤ r.span.stop ∧ r.span.stop ≤ s.length then some (r.apply s) else none

end Replacement

/-- Makes all replacements, provided that each finds its place in the text that it is made in. -/
def splice? (s : List Char) (rs : List Replacement) : Option (List Char) :=
  (rs.mergeSort Replacement.notBefore).foldlM Replacement.applyIn? s

/-- A text from a position on, read from left to right with the replaced parts exchanged. -/
def weave (s : List Char) : Nat → List Replacement → List Char
  | pos, [] => s.drop pos
  | pos, r :: rs => slice s ⟨pos, r.span.start⟩ ++ r.text ++ weave s r.span.stop rs

/-- The text with the part at each place exchanged for what `f` makes of it. -/
def mapAt (f : List Char → List Char) (s : List Char) (spans : List Span) : List Char :=
  weave s 0 (spans.map fun span => ⟨span, f (slice s span)⟩)

/-- Places in a text that stand one after the other. -/
structure InOrder (s : List Char) (spans : List Span) : Prop where
  before : spans.Pairwise Span.Before
  inText : ∀ span ∈ spans, span.start < span.stop ∧ span.stop ≤ s.length

theorem InOrder.tail {s : List Char} {span : Span} {spans : List Span}
    (h : InOrder s (span :: spans)) : InOrder s spans where
  before := h.before.tail
  inText t ht := h.inText t (List.mem_cons_of_mem span ht)

theorem take_append_slice (s : List Char) {i j : Nat} (h : i ≤ j) :
    s.take i ++ slice s ⟨i, j⟩ = s.take j := by
  simp only [slice]
  rw [← List.take_add, Nat.add_sub_cancel' h]

theorem slice_append_drop (s : List Char) {i j : Nat} (h : i ≤ j) :
    slice s ⟨i, j⟩ ++ s.drop j = s.drop i := by
  have hdrop : s.drop j = (s.drop i).drop (j - i) := by
    rw [List.drop_drop, Nat.add_sub_cancel' h]
  simp only [slice]
  rw [hdrop, List.take_append_drop]

section

variable {s : List Char}

/-- A replacement in front of others that are made already. -/
theorem applyIn?_take_append {r : Replacement} (pos : Nat) (rest : List Char)
    (hpos : pos ≤ r.span.start) (hplace : r.span.start < r.span.stop ∧ r.span.stop ≤ s.length) :
    Replacement.applyIn? (s.take r.span.stop ++ rest) r =
      some (s.take pos ++ (slice s ⟨pos, r.span.start⟩ ++ r.text ++ rest)) := by
  have hlength : (s.take r.span.stop).length = r.span.stop := List.length_take_of_le hplace.2
  have hfront : (s.take r.span.stop ++ rest).take r.span.start = s.take r.span.start := by
    rw [List.take_append_of_le_length (by omega), List.take_take, Nat.min_eq_left hplace.1.le]
  have hback : (s.take r.span.stop ++ rest).drop r.span.stop = rest := List.drop_left' hlength
  have hinside : r.span.stop ≤ (s.take r.span.stop ++ rest).length := by
    rw [List.length_append]
    omega
  rw [Replacement.applyIn?, if_pos ⟨hplace.1.le, hinside⟩, Replacement.apply, hfront, hback,
    ← take_append_slice s hpos]
  simp only [List.append_assoc]

/-- Made from the back to the front, replacements in order weave the text. -/
theorem foldlM_reverse_eq {rs : List Replacement} (inOrder : InOrder s (rs.map Replacement.span))
    {pos : Nat} (hpos : ∀ r ∈ rs, pos ≤ r.span.start) :
    rs.reverse.foldlM Replacement.applyIn? s = some (s.take pos ++ weave s pos rs) := by
  induction rs generalizing pos with
  | nil =>
    rw [weave, List.take_append_drop]
    rfl
  | cons r rs ih =>
    have hplace := inOrder.inText r.span List.mem_cons_self
    have hrest : ∀ q ∈ rs, r.span.stop ≤ q.span.start := fun q hq =>
      List.rel_of_pairwise_cons inOrder.before (List.mem_map_of_mem hq)
    rw [List.reverse_cons, List.foldlM_append, ih inOrder.tail hrest, weave]
    simp only [Option.bind_eq_bind, Option.bind_some, List.foldlM_cons, List.foldlM_nil,
      applyIn?_take_append pos _ (hpos r List.mem_cons_self) hplace]
    rfl

/-- Two replacements that begin at one position are the same one. -/
theorem eq_of_start_eq {front : List Replacement} (inOrder : InOrder s (front.map Replacement.span)) :
    ∀ a ∈ front, ∀ b ∈ front, a.span.start = b.span.start → a = b := by
  have hsymm : Std.Symm fun a b : Replacement => a.span.start = b.span.start → a = b :=
    ⟨fun _ _ h hstart => (h hstart.symm).symm⟩
  have hpairs : front.Pairwise fun a b => a.span.start = b.span.start → a = b := by
    refine (List.pairwise_map.mp inOrder.before).imp_of_mem ?_
    intro a b ha _ before hstart
    have hplace := inOrder.inText a.span (List.mem_map_of_mem ha)
    have : a.span.stop ≤ b.span.start := before
    omega
  intro a ha b hb
  exact hpairs.forall_of_forall (fun _ _ _ => rfl) ha hb

/-- The order from the back to the front is the one that the replacements are made in. -/
theorem mergeSort_eq_reverse {front rs : List Replacement} (perm : front.Perm rs)
    (inOrder : InOrder s (front.map Replacement.span)) :
    rs.mergeSort Replacement.notBefore = front.reverse := by
  have sorted : front.reverse.Pairwise fun a b => Replacement.notBefore a b = true := by
    rw [List.pairwise_reverse]
    refine (List.pairwise_map.mp inOrder.before).imp_of_mem ?_
    intro a b ha _ before
    have hplace := inOrder.inText a.span (List.mem_map_of_mem ha)
    have : a.span.stop ≤ b.span.start := before
    simp only [Replacement.notBefore, decide_eq_true_eq]
    omega
  refine List.Perm.eq_of_pairwise ?_ (List.pairwise_mergeSort ?_ ?_ rs) sorted
    ((List.mergeSort_perm rs _).trans (perm.symm.trans front.reverse_perm.symm))
  · intro a b ha hb hab hba
    have ha : a ∈ front := perm.mem_iff.mpr (List.mem_mergeSort.mp ha)
    simp only [Replacement.notBefore, decide_eq_true_eq] at hab hba
    exact eq_of_start_eq inOrder a ha b (List.mem_reverse.mp hb) (Nat.le_antisymm hba hab)
  · intro a b c hab hbc
    simp only [Replacement.notBefore, decide_eq_true_eq] at hab hbc ⊢
    omega
  · intro a b
    simp only [Replacement.notBefore, Bool.or_eq_true, decide_eq_true_eq]
    omega

theorem foldl_of_foldlM {rs : List Replacement} {t : List Char}
    (h : rs.foldlM Replacement.applyIn? s = some t) : rs.foldl Replacement.apply s = t := by
  induction rs generalizing s with
  | nil => exact Option.some.inj h
  | cons r rs ih =>
    rw [List.foldlM_cons, Option.bind_eq_bind, Option.bind_eq_some_iff] at h
    obtain ⟨u, hu, h⟩ := h
    rw [Replacement.applyIn?, Option.ite_none_right_eq_some] at hu
    obtain ⟨-, hu⟩ := hu
    obtain rfl := Option.some.inj hu
    exact ih h

theorem splice_of_splice? {rs : List Replacement} {t : List Char} (h : splice? s rs = some t) :
    splice s rs = t :=
  foldl_of_foldlM h

/-- Replacements at places that stand one after the other can be made in any order: each finds its
place, and the result is the text read from left to right with the parts exchanged. -/
theorem splice?_eq_weave {front rs : List Replacement} (perm : front.Perm rs)
    (inOrder : InOrder s (front.map Replacement.span)) : splice? s rs = some (weave s 0 front) := by
  rw [splice?, mergeSort_eq_reverse perm inOrder, foldlM_reverse_eq inOrder fun r _ => Nat.zero_le _]
  rfl

/-- Replacements at places that are apart can be put in the order of their places. -/
theorem exists_inOrder {rs : List Replacement}
    (apart : (rs.map Replacement.span).Pairwise Span.Apart)
    (inText : ∀ r ∈ rs, r.span.start < r.span.stop ∧ r.span.stop ≤ s.length) :
    ∃ front : List Replacement, front.Perm rs ∧ InOrder s (front.map Replacement.span) := by
  obtain ⟨front, perm, before⟩ := Span.exists_ordered Replacement.span apart fun r hr => (inText r hr).1
  refine ⟨front, perm, before, fun span hspan => ?_⟩
  obtain ⟨r, hr, rfl⟩ := List.mem_map.mp hspan
  exact inText r (perm.mem_iff.mp hr)

theorem splice?_of_apart {rs : List Replacement}
    (apart : (rs.map Replacement.span).Pairwise Span.Apart)
    (inText : ∀ r ∈ rs, r.span.start < r.span.stop ∧ r.span.stop ≤ s.length) :
    ∃ front : List Replacement, front.Perm rs ∧ (front.map Replacement.span).Pairwise Span.Before ∧
      splice? s rs = some (weave s 0 front) := by
  obtain ⟨front, perm, inOrder⟩ := exists_inOrder apart inText
  exact ⟨front, perm, inOrder.before, splice?_eq_weave perm inOrder⟩

theorem splice?_map (f : List Char → List Char) {front spans : List Span} (perm : front.Perm spans)
    (inOrder : InOrder s front) :
    splice? s (spans.map fun span => ⟨span, f (slice s span)⟩) = some (mapAt f s front) := by
  refine splice?_eq_weave (perm.map _) ?_
  rw [List.map_map]
  exact (List.map_id' front).symm ▸ inOrder

/-- With each part put back in its place the text is as it was. -/
theorem weave_slices {spans : List Span} (inOrder : InOrder s spans) {pos : Nat}
    (hpos : ∀ span ∈ spans, pos ≤ span.start) :
    weave s pos (spans.map fun span => ⟨span, slice s span⟩) = s.drop pos := by
  induction spans generalizing pos with
  | nil => rfl
  | cons span spans ih =>
    have hplace := inOrder.inText span List.mem_cons_self
    rw [List.map_cons, weave, ih inOrder.tail fun t ht => List.rel_of_pairwise_cons inOrder.before ht,
      List.append_assoc, slice_append_drop s hplace.1.le,
      slice_append_drop s (hpos span List.mem_cons_self)]

theorem mapAt_id {spans : List Span} (inOrder : InOrder s spans) : mapAt id s spans = s :=
  weave_slices inOrder fun _ _ => Nat.zero_le _

end

end LiveLoader.Text
