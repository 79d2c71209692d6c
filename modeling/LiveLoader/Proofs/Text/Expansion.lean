import LiveLoader.Text.Expansion
import Mathlib.Data.List.Basic

/-!
# Replacement texts that stand for themselves

A replacement text is put in as it is just if none of its dollar signs means anything. A dollar sign
that does is used up, and the text that gives way has none to put in its place.
-/

namespace LiveLoader.Text

/-- A text is broken at a character if that occurs in it, and what follows is an ending of the text. -/
theorem breakOn_singleton_isSome {c : Char} {s : List Char} :
    (breakOn [c] s).isSome = true ↔ c ∈ s := by
  induction s with
  | nil => simp [breakOn]
  | cons d s ih =>
    by_cases h : c = d
    · simp [breakOn, h]
    · simp [breakOn, h, ih]

theorem suffix_of_breakOn {pat s a b : List Char} (h : breakOn pat s = some (a, b)) : b <:+ s := by
  induction s generalizing a with
  | nil =>
    simp only [breakOn] at h
    split at h <;> simp_all
  | cons c s ih =>
    simp only [breakOn] at h
    split at h
    · obtain ⟨-, rfl⟩ := Prod.mk.inj (Option.some.inj h)
      exact List.drop_suffix _ _
    · obtain ⟨⟨a', b'⟩, h', he⟩ := Option.map_eq_some_iff.mp h
      obtain ⟨-, rfl⟩ := Prod.mk.inj he
      exact (ih h').trans (List.suffix_cons c s)

namespace Expansion

/-- What stands behind a dollar sign gives it a meaning: another one, a character of a name, or a brace
that is closed later on. -/
def Refers : List Char → Prop
  | [] => False
  | c :: r => c = '$' ∨ isNameChar c = true ∨ c = '\x7b' ∧ '\x7d' ∈ r

/-- No dollar sign in the text means anything. -/
def Literal (s : List Char) : Prop := ∀ r, '$' :: r <:+ s → ¬ Refers r

theorem literal_nil : Literal [] := by simp [Literal]

theorem literal_cons {c : Char} {s : List Char} :
    Literal (c :: s) ↔ (c = '$' → ¬ Refers s) ∧ Literal s := by
  simp only [Literal, List.suffix_cons_iff, List.cons.injEq]
  grind

theorem literal_of_notMem {s : List Char} (h : '$' ∉ s) : Literal s :=
  fun _ hr _ => h (hr.subset List.mem_cons_self)

theorem reference?_of_ne {c : Char} (h : c ≠ '\x7b') (r : List Char) :
    (reference? (c :: r)).isSome = isNameChar c := by
  unfold reference?
  split
  case h_1 he => exact absurd (List.head_eq_of_cons_eq he) h
  case h_2 => cases hname : isNameChar c <;> simp [hname]

/-- A reference begins behind a dollar sign just if that means something and is not doubled. -/
theorem reference?_isSome {s : List Char} (h : ∀ t, s ≠ '$' :: t) :
    (reference? s).isSome = true ↔ Refers s := by
  cases s with
  | nil => simp [reference?, Refers]
  | cons c r =>
    have hdollar : c ≠ '$' := fun he => h r (he ▸ rfl)
    by_cases hbrace : c = '\x7b'
    · have hname : isNameChar '\x7b' = false := by decide
      simp [hbrace, reference?, Refers, hname, breakOn_singleton_isSome]
    · simp [reference?_of_ne hbrace, Refers, hdollar, hbrace]

theorem suffix_of_reference? {s name rest : List Char} (h : reference? s = some (name, rest)) :
    rest <:+ s := by
  unfold reference? at h
  split at h
  · exact (suffix_of_breakOn h).trans (List.suffix_cons _ _)
  · simp only at h
    split at h
    · cases h
    · obtain ⟨-, rfl⟩ := Prod.mk.inj (Option.some.inj h)
      exact List.drop_suffix _ _

variable {whole : List Char}

theorem count_group (hwhole : '$' ∉ whole) (name : List Char) :
    (if namesWhole name then whole else []).count '$' = 0 := by
  split <;> simp [List.count_eq_zero, hwhole]

/-- Expanding adds no dollar signs. -/
theorem count_expandWithin_le (hwhole : '$' ∉ whole) (fuel : Nat) (s : List Char) :
    (expandWithin whole fuel s).count '$' ≤ s.count '$' := by
  fun_induction expandWithin whole fuel s with
  | case1 => simp
  | case2 => simp
  | case3 fuel r ih => simp; omega
  | case4 fuel r _ _ ih => simpa using ih
  | case5 fuel r _ name rest href ih =>
    have hrest := (suffix_of_reference? href).sublist.count_le '$'
    simp [count_group hwhole]
    omega
  | case6 fuel c r _ hc ih =>
    simp [List.count_cons]
    omega

/-- A text is put in as it is just if none of its dollar signs means anything. -/
theorem expandWithin_eq_self_iff (hwhole : '$' ∉ whole) {fuel : Nat} {s : List Char}
    (h : s.length ≤ fuel) : expandWithin whole fuel s = s ↔ Literal s := by
  fun_induction expandWithin whole fuel s with
  | case1 s =>
    obtain rfl := List.length_eq_zero_iff.mp (Nat.le_zero.mp h)
    simp [literal_nil]
  | case2 => simp [literal_nil]
  | case3 fuel r ih =>
    -- the doubled sign comes out once, so there are fewer of them
    have hcount := count_expandWithin_le hwhole fuel r
    have hne : '$' :: expandWithin whole fuel r ≠ '$' :: '$' :: r :=
      ne_of_apply_ne (List.count '$') (by simp; omega)
    simp [hne, literal_cons, Refers]
  | case4 fuel r hdouble href ih =>
    have hplain : ¬ Refers r := by simp [← reference?_isSome hdouble, href]
    rw [List.cons.injEq, ih (by simpa using h), literal_cons]
    simp [hplain]
  | case5 fuel r hdouble name rest href ih =>
    have hrefers : Refers r := by simp [← reference?_isSome hdouble, href]
    have hcount := count_expandWithin_le hwhole fuel rest
    have hrest := (suffix_of_reference? href).sublist.count_le '$'
    have hne : (if namesWhole name then whole else []) ++ expandWithin whole fuel rest ≠
        '$' :: r :=
      ne_of_apply_ne (List.count '$') (by simp [count_group hwhole]; omega)
    simp [hne, literal_cons, hrefers]
  | case6 fuel c r hdouble hc ih =>
    rw [List.cons.injEq, ih (by simpa using h), literal_cons]
    simp [show c ≠ '$' from hc]

theorem expand_eq_self_iff (hwhole : '$' ∉ whole) {s : List Char} :
    expand whole s = s ↔ Literal s :=
  expandWithin_eq_self_iff hwhole (Nat.le_refl _)

end Expansion

end LiveLoader.Text
