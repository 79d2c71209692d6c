import LiveLoader.Text.Pieces

/-!
# Cutting and joining

Parts without the separator are what a text is cut into that was joined from them. An ending without
the characters that are exchanged is an ending before and after.
-/

namespace LiveLoader.Text

variable {sep : Char}

theorem notMem_of_mem_pieces {s p : List Char} (h : p ∈ pieces sep s) : sep ∉ p := by
  induction s generalizing p with
  | nil =>
    rw [List.mem_singleton.mp h]
    exact List.not_mem_nil
  | cons c r ih =>
    simp only [pieces] at h
    split at h
    case isTrue =>
      rcases List.mem_cons.mp h with rfl | h
      · exact List.not_mem_nil
      · exact ih h
    case isFalse hc =>
      split at h
      case h_1 he => exact absurd he (pieces_ne_nil sep r)
      case h_2 q qs he =>
        rw [he] at ih
        rcases List.mem_cons.mp h with rfl | h
        · intro hm
          rcases List.mem_cons.mp hm with rfl | hm
          · exact hc rfl
          · exact ih List.mem_cons_self hm
        · exact ih (List.mem_cons_of_mem q h)

theorem pieces_of_notMem {s : List Char} (h : sep ∉ s) : pieces sep s = [s] := by
  induction s with
  | nil => rfl
  | cons c r ih =>
    rw [List.mem_cons, not_or] at h
    rw [pieces, if_neg (Ne.symm h.1), ih h.2]

/-- A text is cut at each separator, whatever stands on either side of it. -/
theorem pieces_append_sep (s t : List Char) :
    pieces sep (s ++ sep :: t) = pieces sep s ++ pieces sep t := by
  induction s with
  | nil => simp [pieces]
  | cons c s ih =>
    rw [List.cons_append, pieces, pieces, ih]
    by_cases hc : c = sep
    · rw [if_pos hc, if_pos hc, List.cons_append]
    · rw [if_neg hc, if_neg hc]
      cases hs : pieces sep s with
      | nil => exact absurd hs (pieces_ne_nil sep s)
      | cons p ps => rfl

theorem pieces_append {p : List Char} (h : sep ∉ p) (t : List Char) :
    pieces sep (p ++ sep :: t) = p :: pieces sep t := by
  rw [pieces_append_sep, pieces_of_notMem h]
  rfl

/-- Parts that each have a separator behind them, and what stands behind the last one. -/
theorem pieces_flatMap {ps : List (List Char)} (h : ∀ p ∈ ps, sep ∉ p) :
    pieces sep (ps.flatMap (· ++ [sep])) = ps ++ [[]] := by
  induction ps with
  | nil => rfl
  | cons p ps ih =>
    rw [List.flatMap_cons, List.append_assoc, List.singleton_append,
      pieces_append (h p List.mem_cons_self), ih fun q hq => h q (List.mem_cons_of_mem p hq),
      List.cons_append]

/-- A text has a last part. -/
theorem exists_pieces_concat (sep : Char) (s : List Char) : ∃ ps p, pieces sep s = ps ++ [p] := by
  have hne := pieces_ne_nil sep s
  exact ⟨_, _, (List.dropLast_concat_getLast hne).symm⟩

theorem joinPieces_cons (p : List Char) {ps : List (List Char)} (h : ps ≠ []) :
    joinPieces sep (p :: ps) = p ++ sep :: joinPieces sep ps := by
  cases ps with
  | nil => exact absurd rfl h
  | cons q qs => rfl

theorem pieces_joinPieces {ps : List (List Char)} (hne : ps ≠ []) (h : ∀ p ∈ ps, sep ∉ p) :
    pieces sep (joinPieces sep ps) = ps := by
  induction ps with
  | nil => exact absurd rfl hne
  | cons p ps ih =>
    have hp : sep ∉ p := h p List.mem_cons_self
    by_cases hps : ps = []
    · subst hps
      exact pieces_of_notMem hp
    · rw [joinPieces_cons p hps, pieces_append hp,
        ih hps fun q hq => h q (List.mem_cons_of_mem p hq)]

/-- Parts that each have a separator in front. -/
theorem cons_joinPieces {ps : List (List Char)} (hne : ps ≠ []) :
    sep :: joinPieces sep ps = ps.flatMap (sep :: ·) := by
  induction ps with
  | nil => exact absurd rfl hne
  | cons p ps ih =>
    by_cases hps : ps = []
    · simp [hps, joinPieces]
    · rw [joinPieces_cons p hps, ih hps, List.flatMap_cons, List.cons_append]

theorem joinPieces_inj {ps qs : List (List Char)} (hps : ps ≠ []) (hqs : qs ≠ [])
    (hp : ∀ p ∈ ps, sep ∉ p) (hq : ∀ q ∈ qs, sep ∉ q) :
    joinPieces sep ps = joinPieces sep qs ↔ ps = qs := by
  constructor
  · intro h
    rw [← pieces_joinPieces hps hp, h, pieces_joinPieces hqs hq]
  · exact congrArg _

/-- A part at the end stands behind a separator unless it is the only one. -/
theorem joinPieces_concat (ps : List (List Char)) (p : List Char) :
    joinPieces sep (ps ++ [p]) = if ps = [] then p else joinPieces sep ps ++ sep :: p := by
  induction ps with
  | nil => rfl
  | cons q qs ih =>
    rw [if_neg (List.cons_ne_nil q qs), List.cons_append, joinPieces_cons q (by simp), ih]
    split
    case isTrue h =>
      subst h
      rfl
    case isFalse h => rw [joinPieces_cons q h, List.append_assoc, List.cons_append]

/-- What stands behind the text belongs to its last part. -/
theorem joinPieces_concat_append (ps : List (List Char)) (p e : List Char) :
    joinPieces sep (ps ++ [p]) ++ e = joinPieces sep (ps ++ [p ++ e]) := by
  rw [joinPieces_concat, joinPieces_concat]
  split <;> simp

/-- Joining adds no characters but the separator. -/
theorem mem_joinPieces {ps : List (List Char)} {c : Char} (hc : c ≠ sep) :
    c ∈ joinPieces sep ps ↔ ∃ p ∈ ps, c ∈ p := by
  induction ps with
  | nil => simp [joinPieces]
  | cons p ps ih =>
    by_cases hps : ps = []
    · subst hps
      simp [joinPieces]
    · rw [joinPieces_cons p hps, List.mem_append, List.mem_cons, ih]
      simp [hc]

/-- The characters of a part are characters of the text. -/
theorem mem_of_mem_pieces {s p : List Char} {c : Char} (hp : p ∈ pieces sep s) (hc : c ∈ p) :
    c ∈ s := by
  have hne : c ≠ sep := fun h => notMem_of_mem_pieces hp (h ▸ hc)
  rw [← joinPieces_pieces sep s]
  exact (mem_joinPieces hne).mpr ⟨p, hp, hc⟩

/-- What stands on either side of the last separator. -/
theorem breakLast_eq_some {s a b : List Char} (h : breakLast sep s = some (a, b)) :
    s = a ++ sep :: b := by
  simp only [breakLast] at h
  split at h
  case isTrue => cases h
  case isFalse hlength =>
    have hback := List.takeWhile_append_dropWhile (p := (· ≠ sep)) (l := s.reverse)
    have hsep := List.head?_dropWhile_not (· ≠ sep) s.reverse
    generalize s.reverse.takeWhile (· ≠ sep) = tail at h hlength hback
    cases hrest : s.reverse.dropWhile (· ≠ sep) with
    | nil =>
      rw [hrest, List.append_nil] at hback
      exact absurd (by rw [hback, List.length_reverse]) hlength
    | cons c r =>
      rw [hrest] at hback hsep
      have hc : c = sep := by simpa using hsep
      have hs : s = r.reverse ++ sep :: tail.reverse := by
        rw [← List.reverse_reverse s, ← hback, hc]
        simp
      obtain ⟨rfl, rfl⟩ := Prod.mk.inj (Option.some.inj h)
      have htake : s.length - tail.length - 1 = r.reverse.length := by
        rw [hs]
        simp
        omega
      rw [htake, hs, List.take_left]

theorem endsWith_iff {suf s : List Char} : endsWith suf s = true ↔ suf <:+ s := by
  rw [endsWith, List.isPrefixOf_iff_prefix, List.reverse_prefix]

theorem dropEnd?_append (s suf : List Char) : dropEnd? suf (s ++ suf) = some s := by
  rw [dropEnd?, if_pos (endsWith_iff.mpr (List.suffix_append s suf)), List.length_append,
    Nat.add_sub_cancel, List.take_left]

theorem dropEnd?_eq_some {suf s r : List Char} : dropEnd? suf s = some r ↔ s = r ++ suf := by
  constructor
  · intro h
    by_cases hsuffix : suf <:+ s
    · obtain ⟨q, rfl⟩ := hsuffix
      rw [dropEnd?_append] at h
      rw [Option.some.inj h]
    · rw [dropEnd?, if_neg (mt endsWith_iff.mp hsuffix)] at h
      cases h
  · rintro rfl
    exact dropEnd?_append r suf

theorem dropEnd?_eq_none {suf s : List Char} : dropEnd? suf s = none ↔ ¬ suf <:+ s := by
  simp [dropEnd?, endsWith_iff]

theorem exchange_of_notMem {a b : Char} {s : List Char} (h : a ∉ s) : exchange a b s = s := by
  induction s with
  | nil => rfl
  | cons c s ih =>
    rw [List.mem_cons, not_or] at h
    simp only [exchange, List.map_cons, if_neg (Ne.symm h.1)] at ih ⊢
    rw [ih h.2]

theorem notMem_of_exchange {a b : Char} {s : List Char} (h : b ∉ exchange a b s) : a ∉ s := by
  intro ha
  exact h (List.mem_map.mpr ⟨a, ha, if_pos rfl⟩)

/-- An ending with neither of two characters is the same before and after one is exchanged for the
other. -/
theorem suffix_exchange_iff {a b : Char} {e s : List Char} (ha : a ∉ e) (hb : b ∉ e) :
    e <:+ exchange a b s ↔ e <:+ s := by
  constructor
  · intro h
    obtain ⟨t, ht, rfl⟩ := List.suffix_map_iff.mp h
    rwa [show t.map _ = exchange a b t from rfl, exchange_of_notMem (notMem_of_exchange hb)]
  · intro h
    exact List.suffix_map_iff.mpr ⟨e, h, (exchange_of_notMem ha).symm⟩

end LiveLoader.Text
