import Mathlib.Data.List.Forall2
import LiveLoader.Text.CaseFold
import LiveLoader.Text.Pieces

/-!
# Texts up to case

Two texts are alike up to case when they have the same length and their characters fold to the same
ones, place by place. Nothing else folds to a character before the small letters that is no letter
itself, so texts that are alike have their separators at the same places.
-/

namespace LiveLoader.Text

/-- Equal place by place, up to simple case folding. -/
def AlikeUpToCase (s t : List Char) : Prop :=
  List.Forall₂ (fun c d => foldCase c = foldCase d) s t

namespace AlikeUpToCase

instance (s t : List Char) : Decidable (AlikeUpToCase s t) :=
  inferInstanceAs (Decidable (List.Forall₂ _ s t))

theorem refl (s : List Char) : AlikeUpToCase s s := List.forall₂_same.mpr fun _ _ => rfl

theorem length_eq {s t : List Char} (h : AlikeUpToCase s t) : s.length = t.length :=
  List.Forall₂.length_eq h

end AlikeUpToCase

/-- No run of the table leads to a character before the small letters. -/
theorem le_add_runShift {n : Nat} (h : 128 ≤ n) : 97 ≤ n + runShift foldRuns n := by
  have rows : ∀ row ∈ foldRuns.toList, row.2.1 < 128 ∨ 97 ≤ row.1 + row.2.2.2 := by decide +kernel
  unfold runShift
  split
  case h_1 lo hi step d hfound =>
    have hmem := Array.mem_def.mp (Array.mem_of_find?_eq_some hfound)
    have hin := Array.find?_some hfound
    simp only [Bool.and_eq_true, decide_eq_true_eq] at hin
    have := rows _ hmem
    simp only at this
    omega
  case h_2 => omega

theorem toNat_of_ofNat_eq {n : Nat} {b : Char} (hb : b ≠ '\x00') (h : Char.ofNat n = b) :
    n = b.toNat := by
  by_cases valid : n.isValidChar
  · have whole : Char.ofNat n = Char.ofNatAux n valid := dif_pos valid
    exact congrArg Char.toNat (whole.symm.trans h)
  · have zero : Char.ofNat n = '\x00' := dif_neg valid
    exact absurd (h.symm.trans zero) hb

/-- A character before the small letters is no folding of another one. -/
theorem eq_of_foldCase_eq {b c : Char} (hb : b ≠ '\x00') (small : b.toNat < 97)
    (h : foldCase c = b) : c = b := by
  unfold foldCase at h
  split at h
  case isTrue ascii =>
    have lower : ∀ n < 128, (Char.ofNat n).toLower.toNat < 97 →
        (Char.ofNat n).toLower = Char.ofNat n := by decide +kernel
    have := lower c.toNat ascii
    rw [Char.ofNat_toNat, h] at this
    exact (this small).symm
  case isFalse far =>
    have := le_add_runShift (Nat.not_lt.mp far)
    have := toNat_of_ofNat_eq hb h
    omega

theorem foldCase_eq_backslash_iff {c : Char} : foldCase c = foldCase '\\' ↔ c = '\\' := by
  have fixed : foldCase '\\' = '\\' := by decide
  exact ⟨fun h => eq_of_foldCase_eq (by decide) (by decide) (h.trans fixed), congrArg foldCase⟩

namespace AlikeUpToCase

/-- Texts stay alike when both are written with separators of one slant. -/
theorem exchange {s t : List Char} (h : AlikeUpToCase s t) :
    AlikeUpToCase (exchange '\\' '/' s) (exchange '\\' '/' t) := by
  refine List.forall₂_map_left_iff.mpr (List.forall₂_map_right_iff.mpr (h.imp fun c d hcd => ?_))
  by_cases hc : c = '\\'
  case pos =>
    subst hc
    rw [foldCase_eq_backslash_iff.mp hcd.symm]
  case neg =>
    have hd : d ≠ '\\' := by
      rintro rfl
      exact hc (foldCase_eq_backslash_iff.mp hcd)
    rw [if_neg hc, if_neg hd, hcd]

end AlikeUpToCase

end LiveLoader.Text
