import Mathlib.Algebra.Ring.Parity
import Mathlib.Data.List.Induction
import LiveLoader.Proofs.Text.Quoted
import LiveLoader.Syntax.Lexer

/-!
# The characters of a literal

Backslashes stand in pairs in an escaped text, but for those that take a character away. So no quote in
it ends the literal, nor does its end take away the quote behind it, and the lexer reads the literal as
one string.
-/

namespace LiveLoader.Text.Quoted

open Syntax

/-- Every `c` is written as `spelling`. -/
def respell (c : Char) (spelling : List Char) (s : List Char) : List Char :=
  s.flatMap fun d => if d = c then spelling else [d]

/-- An escaped text is what comes of writing one character after the other with a backslash, each
throughout the text that came of those before it. -/
theorem escape_eq_foldl (s : List Char) :
    escape s = escapes.foldl (fun t p => respell p.1 ['\\', p.2] t) s := by
  simp only [escapes, List.foldl_cons, List.foldl_nil]
  induction s with
  | nil => rfl
  | cons c s ih =>
    rw [escape, ih]
    split_ifs with hslash hquote hfeed hreturn
    · simp [hslash, respell]
    · simp [hquote, respell]
    · simp [hfeed, respell]
    · simp [hreturn, respell]
    · simp [hslash, hquote, hfeed, hreturn, respell]

/-- How many backslashes a text ends in. -/
def slashes (s : List Char) : Nat := (s.reverse.takeWhile (· = '\\')).length

theorem slashes_concat (s : List Char) (c : Char) :
    slashes (s ++ [c]) = if c = '\\' then slashes s + 1 else 0 := by
  rw [slashes, List.reverse_append, List.reverse_singleton, List.singleton_append,
    List.takeWhile_cons]
  split <;> simp_all [slashes]

theorem escape_append (s t : List Char) : escape (s ++ t) = escape s ++ escape t := by
  induction s with
  | nil => rfl
  | cons c s ih =>
    simp only [List.cons_append, escape, ih]
    split_ifs <;> rfl

/-- The last character is written with a backslash in front, or as it is. -/
theorem escape_concat (s : List Char) (c : Char) :
    (∃ e, (c, e) ∈ escapes ∧ escape (s ++ [c]) = escape s ++ ['\\'] ++ [e]) ∨
      ((c ≠ '\\' ∧ c ≠ '\'') ∧ escape (s ++ [c]) = escape s ++ [c]) := by
  rw [escape_append]
  obtain ⟨e, hmem, heq⟩ | ⟨⟨hslash, hquote, -, -⟩, heq⟩ := escape_cons c []
  · exact .inl ⟨e, hmem, by rw [heq]; simp [escape]⟩
  · exact .inr ⟨⟨hslash, hquote⟩, by rw [heq]; rfl⟩

theorem even_slashes_escape (s : List Char) : Even (slashes (escape s)) := by
  induction s using List.reverseRecOn with
  | nil => exact Even.zero
  | append_singleton s c ih =>
    obtain ⟨e, -, heq⟩ | ⟨⟨hslash, -⟩, heq⟩ := escape_concat s c
    · rw [heq, slashes_concat, slashes_concat, if_pos rfl]
      split
      · exact (ih.add_one).add_one
      · exact Even.zero
    · rw [heq, slashes_concat, if_neg hslash]
      exact Even.zero

/-- What stands in a text with one more character at its end is that character, or stood there before. -/
theorem concat_eq_append_cons {s front back : List Char} {c d : Char}
    (h : s ++ [c] = front ++ d :: back) : c = d ∧ front = s ∨ ∃ back', s = front ++ d :: back' := by
  obtain rfl | ⟨back', b, rfl⟩ := List.eq_nil_or_concat back
  · obtain ⟨hfront, hlast⟩ := List.append_inj' h rfl
    exact .inl ⟨List.head_eq_of_cons_eq hlast, hfront.symm⟩
  · rw [List.concat_eq_append, ← List.cons_append, ← List.append_assoc] at h
    exact .inr ⟨back', (List.append_inj' h rfl).1⟩

/-- Each quote has a backslash in front that no other one takes away. -/
theorem odd_slashes_of_escape_eq {s front back : List Char} (h : escape s = front ++ '\'' :: back) :
    Odd (slashes front) := by
  induction s using List.reverseRecOn generalizing back with
  | nil => simp [escape] at h
  | append_singleton s c ih =>
    obtain ⟨e, -, heq⟩ | ⟨⟨-, hquote⟩, heq⟩ := escape_concat s c
    · rw [heq] at h
      rcases concat_eq_append_cons h with ⟨-, rfl⟩ | ⟨back', h⟩
      · rw [slashes_concat, if_pos rfl]
        exact (even_slashes_escape s).add_one
      · rcases concat_eq_append_cons h with ⟨hslash, -⟩ | ⟨back'', h⟩
        · exact absurd hslash (by decide)
        · exact ih h
    · rw [heq] at h
      rcases concat_eq_append_cons h with ⟨rfl, -⟩ | ⟨back', h⟩
      · exact absurd rfl hquote
      · exact ih h

section

variable {r body rest : List Char}

theorem quotedBody?_escaped {c e : Char} (h : (c, e) ∈ escapes)
    (hr : quotedBody? '\'' r = some (body, rest)) :
    quotedBody? '\'' ('\\' :: e :: r) = some ('\\' :: e :: body, rest) := by
  have hcases : ∀ p ∈ escapes,
      quotedBody? '\'' ('\\' :: p.2 :: r) = some ('\\' :: p.2 :: body, rest) := by
    simp only [escapes, List.forall_mem_cons]
    refine ⟨?_, ?_, ?_, ?_, List.forall_mem_nil _⟩
    all_goals
      rw [quotedBody?.eq_def]
      simp [hr]
  exact hcases (c, e) h

theorem quotedBody?_cons {c : Char} (h : c ≠ '\\' ∧ c ≠ '\'' ∧ c ≠ '\n' ∧ c ≠ '\r')
    (hr : quotedBody? '\'' r = some (body, rest)) :
    quotedBody? '\'' (c :: r) = some (c :: body, rest) := by
  rw [quotedBody?.eq_def]
  split <;> simp_all

theorem lexeme_quote (hr : quotedBody? '\'' r = some (body, rest)) :
    lexeme ('\'' :: r) = (.string (unescape true body).units, (unescape true body).valid, rest) := by
  rw [lexeme.eq_def]
  simp [hr]

end

theorem quotedBody?_escape (s rest : List Char) :
    quotedBody? '\'' (escape s ++ '\'' :: rest) = some (escape s, rest) := by
  induction s with
  | nil => rfl
  | cons c s ih =>
    obtain ⟨e, hmem, heq⟩ | ⟨plain, heq⟩ := escape_cons c s
    · rw [heq, List.cons_append, List.cons_append]
      exact quotedBody?_escaped hmem ih
    · rw [heq, List.cons_append]
      exact quotedBody?_cons plain ih

/-- The lexer takes a literal as one string of the characters that it was written for. -/
theorem lexeme_encode (s rest : List Char) :
    lexeme (encode s ++ rest) = (.string (s.map Char.toNat), true, rest) := by
  rw [encode, List.append_assoc, List.cons_append, List.singleton_append,
    lexeme_quote (quotedBody?_escape s rest), unescape_escape]

end LiveLoader.Text.Quoted
