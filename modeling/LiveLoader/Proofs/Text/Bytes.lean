import Mathlib.Data.Char
import Mathlib.Data.List.Lex

/-!
# Texts as bytes

The bytes of a text are ordered as its characters are: of two different characters the smaller one has
the smaller byte at the first place where their bytes differ.
-/

namespace LiveLoader.Text

/-- The bytes of a text. -/
def bytes (s : List Char) : List UInt8 := s.flatMap String.utf8EncodeChar

@[simp] theorem bytes_nil : bytes [] = [] := rfl

@[simp] theorem bytes_cons (c : Char) (s : List Char) :
    bytes (c :: s) = String.utf8EncodeChar c ++ bytes s := List.flatMap_cons

theorem utf8EncodeChar_ne_nil (c : Char) : String.utf8EncodeChar c ≠ [] := by
  simp only [String.utf8EncodeChar]
  split
  · simp
  · split
    · simp
    · split <;> simp

/-- Two bytes are compared by their numbers. -/
theorem cons_ofNat_lt {m n : Nat} (xs ys : List UInt8) (hm : m < 256) (hn : n < 256) :
    UInt8.ofNat m :: xs < UInt8.ofNat n :: ys ↔ m < n ∨ m = n ∧ xs < ys := by
  rw [List.cons_lt_cons_iff, UInt8.lt_iff_toNat_lt, ← UInt8.toNat_inj, UInt8.toNat_ofNat',
    UInt8.toNat_ofNat', Nat.mod_eq_of_lt hm, Nat.mod_eq_of_lt hn]

/-- The parts of a number that the bytes of a character hold. -/
theorem sextets_eq {n : Nat} (h : n < 2097152) :
    262144 * (n / 262144 % 8) + 4096 * (n / 4096 % 64) + 64 * (n / 64 % 64) + n % 64 = n := by
  omega

/-- Whatever follows, the bytes of the smaller character come first. -/
theorem utf8EncodeChar_append_lt {c d : Char} (h : c < d) (xs ys : List UInt8) :
    String.utf8EncodeChar c ++ xs < String.utf8EncodeChar d ++ ys := by
  have hlt : c.val.toNat < d.val.toNat := h
  have hd : d.val.toNat < 1114112 := by
    rcases d.valid with h | ⟨-, h⟩ <;> omega
  have hcs := sextets_eq (n := c.val.toNat) (by omega)
  have hds := sextets_eq (n := d.val.toNat) (by omega)
  simp only [String.utf8EncodeChar]
  split_ifs <;> simp only [List.cons_append, List.nil_append] <;>
    (repeat rw [cons_ofNat_lt _ _ (by omega) (by omega)]) <;> omega

theorem bytes_lt_bytes_of_lt {s t : List Char} (h : s < t) : bytes s < bytes t := by
  induction s generalizing t with
  | nil =>
    cases t with
    | nil => exact absurd h (List.not_lt_nil [])
    | cons d t =>
      obtain ⟨b, bs, hb⟩ := List.exists_cons_of_ne_nil (utf8EncodeChar_ne_nil d)
      rw [bytes_nil, bytes_cons, hb]
      exact List.nil_lt_cons b (bs ++ bytes t)
  | cons c s ih =>
    cases t with
    | nil => exact absurd h (List.not_lt_nil _)
    | cons d t =>
      rw [bytes_cons, bytes_cons]
      rcases List.cons_lt_cons_iff.mp h with hcd | ⟨rfl, hst⟩
      · exact utf8EncodeChar_append_lt hcd _ _
      · exact List.append_left_lt (ih hst)

/-- Texts are compared by their bytes as they are by their characters. -/
theorem bytes_lt_bytes {s t : List Char} : bytes s < bytes t ↔ s < t := by
  refine ⟨fun h => ?_, bytes_lt_bytes_of_lt⟩
  rcases lt_trichotomy s t with hlt | rfl | hlt
  · exact hlt
  · exact absurd h (List.lt_irrefl _)
  · exact absurd (bytes_lt_bytes_of_lt hlt) (List.lt_asymm h)

end LiveLoader.Text
