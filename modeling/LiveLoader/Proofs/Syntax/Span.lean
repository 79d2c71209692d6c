import Mathlib.Data.List.Pairwise
import Mathlib.Data.List.Sort
import LiveLoader.Syntax.Node

/-!
# Places beside each other

Places that have no character in common stay so when they get smaller, and can be put in the order in
which they stand in the text.
-/

namespace LiveLoader.Syntax.Span

/-- `s` and `t` have no character in common. -/
def Apart (s t : Span) : Prop := s.Before t ∨ t.Before s

instance (s t : Span) : Decidable (s.Apart t) := inferInstanceAs (Decidable (_ ∨ _))

theorem Within.refl (s : Span) : s.Within s := ⟨Nat.le_refl _, Nat.le_refl _⟩

theorem Within.trans {s t u : Span} (h : s.Within t) (h' : t.Within u) : s.Within u :=
  ⟨Nat.le_trans h'.1 h.1, Nat.le_trans h.2 h'.2⟩

theorem Apart.of_within {s t s' t' : Span} (h : s.Apart t) (hs : s'.Within s) (ht : t'.Within t) :
    s'.Apart t' := by
  rcases h with h | h
  · exact .inl (Nat.le_trans hs.2 (Nat.le_trans h ht.1))
  · exact .inr (Nat.le_trans ht.2 (Nat.le_trans h hs.1))

/-- What stands at places that are apart can be put in the order of the places. -/
theorem exists_ordered {α : Type} (place : α → Span) {l : List α}
    (apart : (l.map place).Pairwise Apart) (room : ∀ a ∈ l, (place a).start < (place a).stop) :
    ∃ front : List α, front.Perm l ∧ (front.map place).Pairwise Before := by
  let notAfter (a b : α) : Bool := (place a).start ≤ (place b).start
  have perm : (l.mergeSort notAfter).Perm l := List.mergeSort_perm l notAfter
  have sorted : (l.mergeSort notAfter).Pairwise fun a b => notAfter a b = true := by
    refine List.pairwise_mergeSort ?_ ?_ l
    · intro a b c hab hbc
      simp only [notAfter, decide_eq_true_eq] at hab hbc ⊢
      omega
    · intro a b
      simp only [notAfter, Bool.or_eq_true, decide_eq_true_eq]
      omega
  refine ⟨_, perm, ?_⟩
  have apart' := (perm.map place).symm.pairwise apart fun h => h.symm
  rw [List.pairwise_map] at apart' ⊢
  refine (sorted.and apart').imp_of_mem ?_
  rintro a b - hb ⟨hle, before | after⟩
  · exact before
  · have := room b (perm.mem_iff.mp hb)
    have : (place b).stop ≤ (place a).start := after
    simp only [notAfter, decide_eq_true_eq] at hle
    omega

end LiveLoader.Syntax.Span
