import LiveLoader.Syntax.Escape
import LiveLoader.Text.Quoted

/-!
# Reading single-quoted literals

A literal ends at the first quote that no backslash takes away, and what stands before it is read as
scripts read it. So a text that is written as a literal is what the literal denotes.
-/

namespace LiveLoader.Text.Quoted

open Syntax

/-- What stands before the quote that ends a literal, and what follows it; a literal has no line
breaks but behind a backslash. -/
def close? : List Char → Option (List Char × List Char)
  | [] => none
  | '\\' :: c :: r => (close? r).map fun (body, rest) => ('\\' :: c :: body, rest)
  | c :: r =>
    if c = '\'' then some ([], r)
    else if c = '\\' ∨ c = '\n' ∨ c = '\r' then none
    else (close? r).map fun (body, rest) => (c :: body, rest)

/-- The text that a literal denotes, and what follows the literal. -/
def decode? : List Char → Option (List Char × List Char)
  | '\'' :: r => do
    let (body, rest) ← close? r
    let read := unescape false body
    if read.valid then some ((textOfUnits read.units).toList, rest) else none
  | _ => none

/-- The characters that are written with a backslash, and what stands behind it. -/
def escapes : List (Char × Char) := [('\\', '\\'), ('\'', '\''), ('\n', 'n'), ('\r', 'r')]

/-- A character is written with a backslash in front, or as it is. -/
theorem escape_cons (c : Char) (r : List Char) :
    (∃ e, (c, e) ∈ escapes ∧ escape (c :: r) = '\\' :: e :: escape r) ∨
      ((c ≠ '\\' ∧ c ≠ '\'' ∧ c ≠ '\n' ∧ c ≠ '\r') ∧ escape (c :: r) = c :: escape r) := by
  simp only [escape]
  split
  case isTrue h => exact .inl ⟨'\\', by simp [escapes, h], rfl⟩
  case isFalse hslash =>
    split
    case isTrue h => exact .inl ⟨'\'', by simp [escapes, h], rfl⟩
    case isFalse hquote =>
      split
      case isTrue h => exact .inl ⟨'n', by simp [escapes, h], rfl⟩
      case isFalse hfeed =>
        split
        case isTrue h => exact .inl ⟨'r', by simp [escapes, h], rfl⟩
        case isFalse hreturn => exact .inr ⟨⟨hslash, hquote, hfeed, hreturn⟩, rfl⟩

theorem close?_cons {c : Char} (h : c ≠ '\\' ∧ c ≠ '\'' ∧ c ≠ '\n' ∧ c ≠ '\r') (r : List Char) :
    close? (c :: r) = (close? r).map fun (body, rest) => (c :: body, rest) := by
  rw [close?.eq_def]
  split <;> simp_all

/-- The quotes inside an escaped text do not end a literal. -/
theorem close?_escape (s rest : List Char) :
    close? (escape s ++ '\'' :: rest) = some (escape s, rest) := by
  induction s with
  | nil => rfl
  | cons c s ih =>
    obtain ⟨e, -, heq⟩ | ⟨plain, heq⟩ := escape_cons c s
    · rw [heq, List.cons_append, List.cons_append, close?, ih]
      rfl
    · rw [heq, List.cons_append, close?_cons plain, ih]
      rfl

/-- The characters that end a line are not written as they are. -/
theorem notMem_escape {b : Char} (hb : b ∈ ['\n', '\r']) (s : List Char) : b ∉ escape s := by
  induction s with
  | nil => exact List.not_mem_nil
  | cons c s ih =>
    obtain ⟨e, hmem, heq⟩ | ⟨⟨-, -, hfeed, hreturn⟩, heq⟩ := escape_cons c s
    · have hescapes : ∀ b ∈ ['\n', '\r'], b ≠ '\\' ∧ ∀ p ∈ escapes, b ≠ p.2 := by
        simp [escapes]
      rw [heq, List.mem_cons, List.mem_cons]
      exact not_or.mpr ⟨(hescapes b hb).1, not_or.mpr ⟨(hescapes b hb).2 (c, e) hmem, ih⟩⟩
    · have hplain : b ≠ c := by
        rintro rfl
        simp [hfeed, hreturn] at hb
      rw [heq, List.mem_cons]
      exact not_or.mpr ⟨hplain, ih⟩

/-- A literal stands in one line. -/
theorem feed_notMem_encode (s : List Char) : '\n' ∉ encode s := by
  rw [encode, List.cons_append, List.mem_cons, List.mem_append, List.mem_singleton]
  exact not_or.mpr ⟨by decide, not_or.mpr ⟨notMem_escape (by decide) s, by decide⟩⟩

theorem unescapeFrom_cons {octal : Bool} {c : Char} (h : c ≠ '\\' ∧ c ≠ '\r') (fuel : Nat)
    (r : List Char) :
    unescapeFrom octal (fuel + 1) (c :: r) = (unescapeFrom octal fuel r).push [c.toNat] := by
  rw [unescapeFrom.eq_def]
  split <;> simp_all

theorem unescapeFrom_escaped {octal : Bool} {c e : Char} (h : (c, e) ∈ escapes) (fuel : Nat)
    (r : List Char) :
    unescapeFrom octal (fuel + 1) ('\\' :: e :: r) =
      (unescapeFrom octal fuel r).push [c.toNat] := by
  have hcases : ∀ p ∈ escapes, unescapeFrom octal (fuel + 1) ('\\' :: p.2 :: r) =
      (unescapeFrom octal fuel r).push [p.1.toNat] := by
    simp only [escapes, List.forall_mem_cons]
    exact ⟨rfl, rfl, rfl, rfl, nofun⟩
  exact hcases (c, e) h

theorem unescapeFrom_escape (octal : Bool) (s : List Char) {fuel : Nat}
    (h : (escape s).length ≤ fuel) :
    unescapeFrom octal fuel (escape s) = ⟨s.map Char.toNat, true⟩ := by
  induction s generalizing fuel with
  | nil => cases fuel <;> rfl
  | cons c s ih =>
    obtain ⟨e, hmem, heq⟩ | ⟨plain, heq⟩ := escape_cons c s
    all_goals
      rw [heq] at h ⊢
      simp only [List.length_cons] at h
      obtain ⟨fuel, rfl⟩ := Nat.exists_eq_add_one_of_ne_zero (n := fuel) (by omega)
    · rw [unescapeFrom_escaped hmem, ih (by omega)]
      rfl
    · rw [unescapeFrom_cons ⟨plain.1, plain.2.2.2⟩, ih (by omega)]
      rfl

theorem unescape_escape (octal : Bool) (s : List Char) :
    unescape octal (escape s) = ⟨s.map Char.toNat, true⟩ :=
  unescapeFrom_escape octal s (Nat.le_refl _)

/-- No character is half of a surrogate pair. -/
theorem not_isHalf (c : Char) : isHighHalf c.toNat = false ∧ isLowHalf c.toNat = false := by
  have valid : c.toNat < 0xD800 ∨ 0xDFFF < c.toNat ∧ c.toNat < 0x110000 := c.valid
  simp only [isHighHalf, isLowHalf, Bool.and_eq_false_iff, decide_eq_false_iff_not]
  omega

theorem textOfUnits_map_toNat (s : List Char) :
    textOfUnits (s.map Char.toNat) = String.ofList s := by
  have whole : (s.map Char.toNat).any (fun n => isHighHalf n || isLowHalf n) = false := by
    simp [List.any_eq_false, not_isHalf]
  simp only [textOfUnits, whole, Bool.false_and, Bool.false_eq_true, if_false]
  rw [List.flatMap_map, ← List.map_eq_flatMap]
  simp only [Char.ofNat_toNat, List.map_id']

/-- A literal denotes the text that it was written for. -/
theorem decode?_encode (s rest : List Char) : decode? (encode s ++ rest) = some (s, rest) := by
  rw [encode, List.append_assoc, List.cons_append, List.singleton_append, decode?, close?_escape]
  simp only [Option.bind_eq_bind, Option.bind_some, unescape_escape, if_true, textOfUnits_map_toNat,
    String.toList_ofList]

end LiveLoader.Text.Quoted
