import LiveLoader.Proofs.Path.Climb

/-!
# Extensions

A path may be followed by separators and `.` components that do not count. Without them its text
ends with the name of the last component, so to exchange the extension there exchanges that name and
nothing before it.
-/

namespace LiveLoader

open Text

theorem splitExtension_eq_some {name stem ext : List Char}
    (h : Path.splitExtension name = (stem, some ext)) : name = stem ++ '.' :: ext ∧ stem ≠ [] := by
  unfold Path.splitExtension at h
  split at h
  case h_1 | h_2 => cases h
  case h_3 hnil hbreak =>
    cases h
    exact ⟨breakLast_eq_some hbreak, hnil⟩

/-- The text before the extension of a name is a name, unless it is one or two dots. -/
theorem IsName.stem {name stem ext : List Char} (h : IsName name)
    (hsplit : Path.splitExtension name = (stem, some ext)) (hcurrent : stem ≠ ['.'])
    (hparent : stem ≠ ['.', '.']) : IsName stem := by
  obtain ⟨rfl, hnil⟩ := splitExtension_eq_some hsplit
  exact ⟨⟨hnil, fun hmem => h.notMem (List.mem_append_left _ hmem), hcurrent⟩, hparent⟩

namespace Component

theorem ofPiece_eq_none {p : List Char} : ofPiece false p = none ↔ p = [] ∨ p = ['.'] := by
  unfold ofPiece
  split_ifs <;> simp_all

theorem eq_of_ofPiece {first : Bool} {p name : List Char}
    (h : ofPiece first p = some (normal name)) : p = name := by
  unfold ofPiece at h
  split_ifs at h <;> simp_all

end Component

namespace Path

/-- The name of the last component without its extension. -/
def stem? (p : Path) : Option (List Char) := p.fileName?.map fun n => (splitExtension n).1

/-- A piece behind a separator adds the component that it stands for. -/
theorem components_append (s : List Char) {p : List Char} (hp : '/' ∉ p) :
    (Path.mk (s ++ '/' :: p)).components =
      (Path.mk (s ++ ['/'])).components ++ (Component.ofPiece false p).toList := by
  have habsolute : (Path.mk (s ++ '/' :: p)).isAbsolute = (Path.mk (s ++ ['/'])).isAbsolute := by
    cases s <;> simp [isAbsolute]
  have hlast : ([p] : List (List Char)).filterMap (Component.ofPiece false) =
      (Component.ofPiece false p).toList := by
    cases h : Component.ofPiece false p <;> simp [h]
  have hnone : Component.ofPiece false [] = none := by rfl
  unfold components
  rw [habsolute]
  simp only [pieces_append_sep, pieces_of_notMem hp, List.filterMap_append, hlast]
  cases h : pieces '/' s with
  | nil => exact absurd h (pieces_ne_nil '/' s)
  | cons q qs => split <;> simp [hlast, pieces, hnone]

/-- A separator at the end adds nothing. -/
theorem components_append_sep {s : List Char} (h : s ≠ []) :
    (Path.mk (s ++ ['/'])).components = (Path.mk s).components := by
  have hnone : Component.ofPiece false [] = none := by rfl
  have habsolute : (Path.mk (s ++ ['/'])).isAbsolute = (Path.mk s).isAbsolute := by
    cases s with
    | nil => exact absurd rfl h
    | cons c s => rfl
  unfold components
  rw [habsolute]
  simp only [pieces_append_sep, List.filterMap_append]
  cases h : pieces '/' s with
  | nil => exact absurd h (pieces_ne_nil '/' s)
  | cons q qs => split <;> simp [pieces, hnone]

/-- Nothing stands at the end of the text that does not count. -/
def EndsTight (t : List Char) : Prop :=
  ∀ s p, s ≠ [] → Component.ofPiece false p = none → t ≠ s ++ '/' :: p

theorem endsTight_root : EndsTight ['/'] := by
  intro s p hs _
  cases s with
  | nil => exact absurd rfl hs
  | cons c s => simp

/-- A step of trimming drops a piece that does not count, or leaves the root or the text. -/
theorem go_succ_cases (n : Nat) (s : List Char) :
    (∃ t p, t ≠ [] ∧ Component.ofPiece false p = none ∧ s = t ++ '/' :: p ∧
      trimmed.go (n + 1) s = trimmed.go n t) ∨
    ((s = ['/'] ∨ s = ['/', '.']) ∧ trimmed.go (n + 1) s = ['/']) ∨
    (EndsTight s ∧ trimmed.go (n + 1) s = s) := by
  rw [trimmed.go]
  split
  case h_1 r hr =>
    obtain rfl : s = r.reverse ++ ['/'] := by simpa using congrArg List.reverse hr
    by_cases hnil : r = []
    · exact .inr (.inl ⟨.inl (by rw [hnil]; rfl), by simp [hnil]⟩)
    · exact .inl ⟨r.reverse, [], by simpa using hnil, rfl, rfl, by simp [hnil]⟩
  case h_2 r hr =>
    obtain rfl : s = r.reverse ++ ['/', '.'] := by simpa using congrArg List.reverse hr
    by_cases hnil : r = []
    · exact .inr (.inl ⟨.inr (by rw [hnil]; rfl), by simp [hnil]⟩)
    · exact .inl ⟨r.reverse, ['.'], by simpa using hnil, rfl, rfl, by simp [hnil]⟩
  case h_3 hsep hdot =>
    refine .inr (.inr ⟨?_, rfl⟩)
    rintro t p - hp rfl
    rcases Component.ofPiece_eq_none.mp hp with rfl | rfl
    · exact hsep t.reverse (by simp)
    · exact hdot t.reverse (by simp)

/-- What is cut off the end does not count. -/
theorem components_trimmed (p : Path) : (Path.mk p.trimmed).components = p.components := by
  have hgo : ∀ (n : Nat) (s : List Char),
      (Path.mk (trimmed.go n s)).components = (Path.mk s).components := by
    intro n
    induction n with
    | zero => exact fun _ => rfl
    | succ n ih =>
      intro s
      obtain ⟨t, q, ht, hq, rfl, hgo⟩ | ⟨rfl | rfl, hgo⟩ | ⟨-, hgo⟩ := go_succ_cases n s
      · have hsep : '/' ∉ q := by
          rcases Component.ofPiece_eq_none.mp hq with rfl | rfl <;> decide
        rw [hgo, ih, components_append t hsep, hq, components_append_sep ht]
        exact (List.append_nil _).symm
      · rw [hgo]
      · rw [hgo]
        rfl
      · rw [hgo]
  exact hgo _ _

theorem endsTight_trimmed (p : Path) : EndsTight p.trimmed := by
  have hgo : ∀ (n : Nat) (s : List Char), s.length ≤ n → EndsTight (trimmed.go n s) := by
    intro n
    induction n with
    | zero =>
      intro s hs t q _ _
      obtain rfl := List.length_eq_zero_iff.mp (Nat.le_zero.mp hs)
      simp [trimmed.go]
    | succ n ih =>
      intro s hs
      obtain ⟨t, q, -, -, rfl, hgo⟩ | ⟨-, hgo⟩ | ⟨htight, hgo⟩ := go_succ_cases n s
      · rw [hgo]
        exact ih t (by simp at hs; omega)
      · rw [hgo]
        exact endsTight_root
      · rw [hgo]
        exact htight
  exact hgo _ _ (Nat.le_refl _)

theorem isAbsolute_iff_root_mem {p : Path} : p.isAbsolute = true ↔ .root ∈ p.components := by
  constructor
  · intro absolute
    simp [components, absolute]
  · intro h
    by_contra hrelative
    exact root_notMem_components (Bool.eq_false_iff.mpr hrelative) h

theorem isName_of_mem_components {p : Path} {name : List Char}
    (h : Component.normal name ∈ p.components) : IsName name := by
  obtain ⟨cs, hcs, hvalid⟩ := p.exists_components
  rw [hcs, List.mem_append] at h
  rcases h with h | h
  · split at h <;> simp at h
  · exact (hvalid _ h).1

theorem mem_pieces_of_mem_components {p : Path} {name : List Char}
    (h : Component.normal name ∈ p.components) : name ∈ pieces '/' p.text := by
  have hpiece : ∀ (first : Bool) (ps : List (List Char)),
      Component.normal name ∈ ps.filterMap (Component.ofPiece first) → name ∈ ps := by
    intro first ps hmem
    obtain ⟨q, hq, he⟩ := List.mem_filterMap.mp hmem
    exact Component.eq_of_ofPiece he ▸ hq
  unfold components at h
  split at h
  case isTrue => exact hpiece _ _ (by simpa using h)
  case isFalse =>
    rcases List.mem_append.mp h with h | h
    · exact List.mem_of_mem_take (hpiece _ _ h)
    · exact List.mem_of_mem_drop (hpiece _ _ h)

theorem getLast?_of_fileName? {p : Path} {name : List Char} (h : p.fileName? = some name) :
    p.components.getLast? = some (.normal name) := by
  unfold fileName? at h
  split at h
  case h_1 he => rw [he, Option.some.inj h]
  case h_2 => cases h

/-- The text of a rooted path without what follows its name is the name behind a separator. -/
theorem exists_front {p : Path} {name : List Char} (absolute : p.isAbsolute = true)
    (h : p.fileName? = some name) : ∃ s, p.trimmed = s ++ '/' :: name ∧
      p.components = (Path.mk (s ++ ['/'])).components ++ [.normal name] := by
  have hcomponents := p.components_trimmed
  have htight := p.endsTight_trimmed
  have hlast := getLast?_of_fileName? h
  obtain ⟨ps, q, hq⟩ := exists_pieces_concat '/' p.trimmed
  have hsep : '/' ∉ q :=
    notMem_of_mem_pieces (hq ▸ List.mem_append_right ps (List.mem_singleton_self q))
  have htext : p.trimmed = joinPieces '/' ps ++ '/' :: q := by
    rw [← joinPieces_pieces '/' p.trimmed, hq, joinPieces_concat, if_neg]
    rintro rfl
    have hroot : (Path.mk p.trimmed).isAbsolute = true := by
      rw [isAbsolute_iff_root_mem, hcomponents, ← isAbsolute_iff_root_mem, absolute]
    rw [← joinPieces_pieces '/' p.trimmed, hq] at hroot
    exact hsep (List.mem_of_head? (by simpa [isAbsolute, joinPieces] using hroot))
  rw [htext] at htight
  rw [htext, components_append _ hsep] at hcomponents
  cases hpiece : Component.ofPiece false q with
  | none =>
    have hnil : joinPieces '/' ps = [] := by
      by_contra hne
      exact htight _ _ hne hpiece rfl
    rw [← hcomponents, hpiece, hnil] at hlast
    cases hlast
  | some c =>
    have hc : c = .normal name := by
      rw [← hcomponents, hpiece] at hlast
      simpa using hlast
    subst hc
    have hname : q = name := Component.eq_of_ofPiece hpiece
    exact ⟨_, hname ▸ htext, by rw [← hcomponents, hpiece]; rfl⟩

/-- Without its extension, a path has the stem of its last name in the place of the name. -/
theorem components_withExtension_nil {p : Path} {name stem ext : List Char}
    (absolute : p.isAbsolute = true) (hname : p.fileName? = some name)
    (hsplit : splitExtension name = (stem, some ext)) (hstem : IsName stem) :
    ∃ above, p.components = above ++ [.normal name] ∧
      (p.withExtension []).components = above ++ [.normal stem] := by
  obtain ⟨s, htrimmed, hcomponents⟩ := exists_front absolute hname
  have hfront : p.trimmed.take (p.trimmed.length - name.length) = s ++ ['/'] := by
    rw [htrimmed, List.append_cons, List.length_append, Nat.add_sub_cancel, List.take_left]
  have hpath : p.withExtension [] = ⟨s ++ '/' :: stem⟩ := by
    unfold withExtension
    simp [hname, hsplit, hfront, hstem.ne_current]
  refine ⟨_, hcomponents, ?_⟩
  rw [hpath, components_append _ hstem.notMem, Component.ofPiece_of_isPiece hstem.toIsPiece,
    Component.ofName_of_isName hstem]
  rfl

end Path

end LiveLoader
