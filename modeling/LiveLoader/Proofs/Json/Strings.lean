import LiveLoader.Json.Reader
import LiveLoader.Proofs.Json.Grammar

/-!
# Reading strings

The reader gives back the numbers that a string was written for, however each of them was written,
and puts them together to the text that they denote. It finds no text exactly if there is none.
-/

namespace LiveLoader.Json

theorem hexValue?_of_hexDigit {d : Char} {n : Nat} (h : HexDigit d n) : hexValue? d = some n := by
  have digits : ∀ s ∈ ["0123456789abcdef".toList, "0123456789ABCDEF".toList], ∀ p ∈ s.zipIdx,
      hexValue? p.1 = some p.2 := by decide
  rcases h with h | h
  · exact digits _ (by simp) (d, n) (List.mk_mem_zipIdx_iff_getElem?.mpr h)
  · exact digits _ (by simp) (d, n) (List.mk_mem_zipIdx_iff_getElem?.mpr h)

theorem hexDigit_lt {d : Char} {n : Nat} (h : HexDigit d n) : n < 0x10 := by
  rcases h with h | h <;> exact (List.getElem?_eq_some_iff.mp h).1

theorem simpleEscape?_of_mem {e c : Char} (h : (e, c) ∈ shortEscapes) :
    e ≠ 'u' ∧ simpleEscape? e = some c := by
  have all : ∀ p ∈ shortEscapes, p.1 ≠ 'u' ∧ simpleEscape? p.1 = some p.2 := by decide
  exact all (e, c) h

theorem readUnits?_unit {n : Nat} {s : List Char} (h : SpellsUnit n s) (r : List Char) :
    readUnits? (s ++ r) = (readUnits? r).map fun (us, rest) => (n :: us, rest) := by
  cases h with
  | @plain c printable quote backslash =>
    rw [List.cons_append, List.nil_append, readUnits?, if_neg (Nat.not_lt.mpr printable)]
    · cases readUnits? r <;> rfl
    · exact quote
    · exact fun _ _ _ _ _ h _ => backslash h
    · exact fun _ _ h _ => backslash h
  | @short e c escape =>
    obtain ⟨hu, hescape⟩ := simpleEscape?_of_mem escape
    rw [List.cons_append, List.cons_append, List.nil_append, readUnits?, hescape]
    · cases readUnits? r <;> rfl
    · exact fun _ _ _ _ _ h _ => hu h
  | @hex d₁ d₂ d₃ d₄ n₁ n₂ n₃ n₄ first second third fourth =>
    have value : hex4? d₁ d₂ d₃ d₄ = some (0x1000 * n₁ + 0x100 * n₂ + 0x10 * n₃ + n₄) := by
      simp only [hex4?, hexValue?_of_hexDigit first, hexValue?_of_hexDigit second,
        hexValue?_of_hexDigit third, hexValue?_of_hexDigit fourth]
      exact congrArg some (by omega)
    show readUnits? ('\\' :: 'u' :: d₁ :: d₂ :: d₃ :: d₄ :: r) = _
    rw [readUnits?, value]
    cases readUnits? r <;> rfl

/-- What was written between the quotes is read up to the closing one. -/
theorem readUnits?_body {ns : List Nat} {s : List Char} (h : SpellsUnits ns s) (r : List Char) :
    readUnits? (s ++ '"' :: r) = some (ns, r) := by
  induction h with
  | nil => rfl
  | cons unit more ih =>
    rw [List.append_assoc, readUnits?_unit unit, ih]
    rfl

theorem toNat_ofNat {n : Nat} (h : n.isValidChar) : (Char.ofNat n).toNat = n :=
  congrArg Char.toNat (dif_pos h : Char.ofNat n = Char.ofNatAux n h)

theorem toNat_valid (c : Char) : c.toNat < 0xD800 ∨ 0xDFFF < c.toNat ∧ c.toNat < 0x110000 := c.valid

theorem lt_of_spellsUnit {n : Nat} {s : List Char} (h : SpellsUnit n s) : n < 0x110000 := by
  cases h with
  | @plain c => have := toNat_valid c; omega
  | @short e c => have := toNat_valid c; omega
  | hex first second third fourth =>
    have := hexDigit_lt first
    have := hexDigit_lt second
    have := hexDigit_lt third
    have := hexDigit_lt fourth
    omega

theorem lt_of_spellsUnits {ns : List Nat} {s : List Char} (h : SpellsUnits ns s) :
    ∀ n ∈ ns, n < 0x110000 := by
  induction h with
  | nil => exact nofun
  | cons unit more ih => exact List.forall_mem_cons.mpr ⟨lt_of_spellsUnit unit, ih⟩

theorem isHigh_iff {n : Nat} : isHigh n = true ↔ 0xD800 ≤ n ∧ n < 0xDC00 := by simp [isHigh]

theorem isLow_iff {n : Nat} : isLow n = true ↔ 0xDC00 ≤ n ∧ n < 0xE000 := by simp [isLow]

theorem pair?_of_denotes {ns : List Nat} {t : List Char} (h : Denotes ns t) :
    pair? ns = some t := by
  induction h with
  | nil => rfl
  | single c more ih =>
    have := toNat_valid c
    have high : ¬ isHigh c.toNat = true := by rw [isHigh_iff]; omega
    have low : ¬ isLow c.toNat = true := by rw [isLow_iff]; omega
    rw [pair?.eq_def]
    simp only [if_neg high, if_neg low, ih, Option.map_some, Char.ofNat_toNat]
  | @pair c ns t far more ih =>
    have := toNat_valid c
    have high : isHigh (0xD800 + (c.toNat - 0x10000) / 0x400) = true := by rw [isHigh_iff]; omega
    have low : isLow (0xDC00 + (c.toNat - 0x10000) % 0x400) = true := by rw [isLow_iff]; omega
    have together : 0x10000 + (0xD800 + (c.toNat - 0x10000) / 0x400 - 0xD800) * 0x400 +
        (0xDC00 + (c.toNat - 0x10000) % 0x400 - 0xDC00) = c.toNat := by omega
    rw [pair?, if_pos high]
    simp only [low, if_true, ih, Option.map_some, together, Char.ofNat_toNat]

theorem denotes_of_pair? {ns : List Nat} (range : ∀ n ∈ ns, n < 0x110000) {t : List Char}
    (h : pair? ns = some t) : Denotes ns t := by
  fun_induction pair? ns generalizing t with
  | case1 =>
    cases h
    exact .nil
  | case2 n high m r low ih =>
    obtain ⟨t, ht, rfl⟩ := Option.map_eq_some_iff.mp h
    rw [isHigh_iff] at high
    rw [isLow_iff] at low
    have valid : (0x10000 + (n - 0xD800) * 0x400 + (m - 0xDC00)).isValidChar := .inr (by omega)
    have toNat := toNat_ofNat valid
    have more := ih (fun k hk => range k (by simp [hk])) ht
    have joined := Denotes.pair (by rw [toNat]; omega) more
    have first : 0xD800 + (0x10000 + (n - 0xD800) * 0x400 + (m - 0xDC00) - 0x10000) / 0x400 = n := by
      omega
    have second : 0xDC00 + (0x10000 + (n - 0xD800) * 0x400 + (m - 0xDC00) - 0x10000) % 0x400 = m := by
      omega
    rwa [toNat, first, second] at joined
  | case3 => cases h
  | case4 => cases h
  | case5 => cases h
  | case6 n r high low ih =>
    obtain ⟨t, ht, rfl⟩ := Option.map_eq_some_iff.mp h
    rw [isHigh_iff] at high
    rw [isLow_iff] at low
    have := range n (by simp)
    have valid : n.isValidChar := by
      rcases Nat.lt_or_ge n 0xD800 with hn | hn
      · exact .inl hn
      · exact .inr (by omega)
    have alone := Denotes.single (Char.ofNat n) (ih (fun k hk => range k (by simp [hk])) ht)
    rwa [toNat_ofNat valid] at alone

theorem pair?_eq_none {ns : List Nat} (range : ∀ n ∈ ns, n < 0x110000)
    (broken : ∀ t, ¬ Denotes ns t) : pair? ns = none :=
  Option.eq_none_iff_forall_ne_some.mpr fun t h => broken t (denotes_of_pair? range h)

/-- A text whose characters need no escape. -/
def Plain (t : List Char) : Prop := ∀ c ∈ t, 0x20 ≤ c.toNat ∧ c ≠ '"' ∧ c ≠ '\\'

instance : DecidablePred Plain := fun t => List.decidableBAll _ t

theorem spellsUnits_plain {t : List Char} (h : Plain t) : SpellsUnits (t.map Char.toNat) t := by
  induction t with
  | nil => exact .nil
  | cons c t ih =>
    obtain ⟨⟨printable, quote, backslash⟩, ht⟩ := List.forall_mem_cons.mp h
    exact .cons (.plain printable quote backslash) (ih ht)

theorem denotes_map_toNat (t : List Char) : Denotes (t.map Char.toNat) t := by
  induction t with
  | nil => exact .nil
  | cons c t ih => exact .single c ih

theorem spellsString_plain {t : List Char} (h : Plain t) :
    SpellsString (some t) ('"' :: (t ++ ['"'])) :=
  .whole (spellsUnits_plain h) (denotes_map_toNat t)

/-- Half of a pair alone denotes no text. -/
theorem spellsString_half {n : Nat} {s : List Char} (half : 0xD800 ≤ n ∧ n < 0xE000)
    (h : SpellsUnit n s) : SpellsString none ('"' :: (s ++ ['"'])) := by
  have body := SpellsUnits.cons h .nil
  rw [List.append_nil] at body
  refine .broken body ?_
  rintro _ (_ | ⟨c⟩)
  have := toNat_valid c
  omega

/-- A string is read to its closing quote, with the text that it denotes. -/
theorem readString?_of_spellsString {t : Option (List Char)} {s : List Char}
    (h : SpellsString t s) (r : List Char) :
    ∃ body, s ++ r = '"' :: body ∧ readString? body = some (t, r) := by
  cases h with
  | @whole ns t s body text =>
    refine ⟨s ++ '"' :: r, by simp, ?_⟩
    simp only [readString?, readUnits?_body body, Option.map_some, pair?_of_denotes text]
  | @broken ns s body text =>
    refine ⟨s ++ '"' :: r, by simp, ?_⟩
    simp only [readString?, readUnits?_body body, Option.map_some,
      pair?_eq_none (lt_of_spellsUnits body) text]

end LiveLoader.Json
