import Mathlib.Data.List.Basic

/-!
# Addresses in forests

A place in a forest has an address: the number of a root, then the number of one of its children, and
so on down. An address is a prefix of another one if its place is above the other, and addresses are
ordered as the places are met on a visit from the roots down.
-/

namespace LiveLoader.Forest

section

variable {children : α → List α}

variable (children) in
/-- The node at an address. The empty address stands for no node. -/
def get? : List α → List Nat → Option α
  | _, [] => none
  | ns, i :: a => ns[i]?.bind fun n => if a = [] then some n else get? (children n) a

theorem get?_cons (ns : List α) (i : Nat) (a : List Nat) : get? children ns (i :: a) =
    ns[i]?.bind fun n => if a = [] then some n else get? children (children n) a := rfl

theorem ne_nil_of_get? {ns : List α} {a : List Nat} {n : α} (h : get? children ns a = some n) :
    a ≠ [] := by
  rintro rfl
  cases h

theorem exists_root_of_get? {ns : List α} {i : Nat} {a : List Nat} {n : α}
    (h : get? children ns (i :: a) = some n) : ∃ root, ns[i]? = some root ∧
      (a = [] ∧ root = n ∨ get? children (children root) a = some n) := by
  rw [get?_cons, Option.bind_eq_some_iff] at h
  obtain ⟨root, hroot, h⟩ := h
  refine ⟨root, hroot, ?_⟩
  by_cases ha : a = []
  · rw [if_pos ha, Option.some.injEq] at h
    exact .inl ⟨ha, h⟩
  · rw [if_neg ha] at h
    exact .inr h

theorem get?_of_root {ns : List α} {i : Nat} {a : List Nat} {root n : α}
    (hroot : ns[i]? = some root)
    (h : a = [] ∧ root = n ∨ get? children (children root) a = some n) :
    get? children ns (i :: a) = some n := by
  rw [get?_cons, hroot, Option.bind_some]
  rcases h with ⟨rfl, rfl⟩ | h
  · rw [if_pos rfl]
  · rw [if_neg (ne_nil_of_get? h), h]

theorem lt_length_of_get? {ns : List α} {i : Nat} {a : List Nat} {n : α}
    (h : get? children ns (i :: a) = some n) : i < ns.length := by
  obtain ⟨root, hroot, -⟩ := exists_root_of_get? h
  exact (List.getElem?_eq_some_iff.mp hroot).1

/-- More roots behind change no address. -/
theorem get?_append_left {ns : List α} (ms : List α) {i : Nat} (hi : i < ns.length) (a : List Nat) :
    get? children (ns ++ ms) (i :: a) = get? children ns (i :: a) := by
  rw [get?_cons, get?_cons, List.getElem?_append_left hi]

/-- The address of a place when `k` more roots stand in front. -/
def shift (k : Nat) (a : List Nat) : List Nat := a.modifyHead (k + ·)

@[simp] theorem shift_nil (k : Nat) : shift k [] = [] := rfl

@[simp] theorem shift_cons (k i : Nat) (a : List Nat) : shift k (i :: a) = (k + i) :: a := rfl

@[simp] theorem shift_zero (a : List Nat) : shift 0 a = a := by
  cases a with
  | nil => rfl
  | cons i a => rw [shift_cons, Nat.zero_add]

theorem shift_add (k l : Nat) (a : List Nat) : shift (k + l) a = shift k (shift l a) := by
  cases a with
  | nil => rfl
  | cons i a => simp only [shift_cons, Nat.add_assoc]

theorem shift_prefix_shift (k : Nat) (a b : List Nat) : shift k a <+: shift k b ↔ a <+: b := by
  cases a with
  | nil => simp
  | cons i a =>
    cases b with
    | nil => simp
    | cons j b => simp [List.cons_prefix_cons]

theorem shift_lt_shift (k : Nat) (a b : List Nat) : shift k a < shift k b ↔ a < b := by
  cases b with
  | nil => simp
  | cons j b =>
    cases a with
    | nil => simp
    | cons i a => simp [List.cons_lt_cons_iff]

theorem get?_shift (ns ms : List α) (a : List Nat) :
    get? children (ns ++ ms) (shift ns.length a) = get? children ms a := by
  cases a with
  | nil => rfl
  | cons i a =>
    rw [shift_cons, get?_cons, get?_cons, List.getElem?_append_right (Nat.le_add_right _ _),
      Nat.add_sub_cancel_left]

end

end LiveLoader.Forest
