import LiveLoader.Proofs.Path.Extension

/-!
# Direct paths

A rooted path without `..` is its root and its names; normalizing only tidies its text.
-/

namespace LiveLoader

open Text

namespace Path

/-- The path is rooted and does not climb. -/
structure IsDirect (p : Path) : Prop where
  absolute : p.isAbsolute = true
  noParent : Component.parent ∉ p.components

instance (p : Path) : Decidable p.IsDirect :=
  decidable_of_iff (p.isAbsolute = true ∧ Component.parent ∉ p.components)
    ⟨fun h => ⟨h.1, h.2⟩, fun h => ⟨h.1, h.2⟩⟩

theorem current_notMem_components {p : Path} (absolute : p.isAbsolute = true) :
    Component.current ∉ p.components := by
  unfold components
  rw [if_pos absolute]
  intro h
  rcases List.mem_cons.mp h with h | h
  · cases h
  · obtain ⟨q, -, hq⟩ := List.mem_filterMap.mp h
    unfold Component.ofPiece at hq
    split_ifs at hq <;> simp_all

theorem isName_of_names_append {p : Path} {shared ts : List (List Char)}
    (h : p.normal.names = shared ++ ts) : ∀ name ∈ ts, IsName name :=
  fun name hname => p.normalize_eq.2 name (h ▸ List.mem_append_right _ hname)

namespace IsDirect

variable {p : Path}

/-- A path of a root and names is direct, and in its normal form up to its text. -/
theorem of_components {names : List (List Char)}
    (h : p.components = .root :: names.map Component.normal) :
    p.IsDirect ∧ p.normal = ⟨true, false, names⟩ := by
  have hnormal : p.normal = ⟨true, false, names⟩ := by
    rw [normal, h, ← Normal.foldl_push_components ⟨true, false, names⟩]
    rfl
  refine ⟨⟨isAbsolute_iff_root_mem.mpr ?_, ?_⟩, hnormal⟩ <;> simp [h]

theorem exists_names (h : p.IsDirect) :
    ∃ names : List (List Char), p.components = .root :: names.map Component.normal := by
  obtain ⟨cs, hcs, hvalid⟩ := p.exists_components
  rw [h.absolute, if_pos rfl, List.singleton_append] at hcs
  have hnames : (cs.map Component.text).map Component.normal = cs := by
    rw [List.map_map]
    refine (List.map_congr_left fun c hc => ?_).trans (List.map_id cs)
    have hmem : c ∈ p.components := hcs ▸ List.mem_cons_of_mem _ hc
    cases c with
    | root => exact absurd rfl (hvalid _ hc).2
    | current => exact absurd hmem (current_notMem_components h.absolute)
    | parent => exact absurd hmem h.noParent
    | normal name => rfl
  exact ⟨cs.map Component.text, by rw [hcs, hnames]⟩

theorem components_eq (h : p.IsDirect) :
    p.components = .root :: p.normal.names.map Component.normal := by
  obtain ⟨names, hnames⟩ := h.exists_names
  rw [(of_components hnames).2, hnames]

theorem pieces_eq (h : p.IsDirect) : p.normal.pieces = p.normal.names := by
  rw [(of_components h.components_eq).2]
  rfl

/-- The names in a direct path are pieces of its text. -/
theorem notMem_name (h : p.IsDirect) {c : Char} (hc : c ∉ p.text) :
    ∀ name ∈ p.normal.names, c ∉ name := by
  intro name hname hmem
  have hcomponent : Component.normal name ∈ p.components := by
    rw [h.components_eq]
    exact List.mem_cons_of_mem _ (List.mem_map_of_mem hname)
  exact hc (mem_of_mem_pieces (mem_pieces_of_mem_components hcomponent) hmem)

end IsDirect

/-- Direct paths name the same place just if they are the same when normalized. -/
theorem same_iff_normalize {p q : Path} (hp : p.IsDirect) (hq : q.IsDirect) :
    p.same q = true ↔ p.normalize = q.normalize := by
  constructor
  · intro h
    have hcomponents : p.components = q.components := by simpa [same] using h
    unfold normalize
    rw [hcomponents]
  · intro h
    have hnormal : p.normal = q.normal := by rw [← normal_normalize p, h, normal_normalize]
    simp [same, hp.components_eq, hq.components_eq, hnormal]

/-- One direct path lies at or above another as its names do. -/
theorem names_prefix_iff {p q : Path} (hp : p.IsDirect) (hq : q.IsDirect) :
    p.normal.names <+: q.normal.names ↔ p.components <+: q.components := by
  have hinjective : Function.Injective Component.normal := fun _ _ h => Component.normal.inj h
  rw [hp.components_eq, hq.components_eq, List.cons_prefix_cons,
    List.prefix_map_iff_of_injective hinjective]
  simp

/-- The names of a file with an extension, and of its path without it. -/
theorem exists_names_withExtension {file : Path} {name stem ext : List Char}
    (hfile : file.IsDirect) (hname : file.fileName? = some name)
    (hsplit : splitExtension name = (stem, some ext)) (hstem : IsName stem) :
    (file.withExtension []).IsDirect ∧
      ∃ above, file.normal.names = above ++ [name] ∧
        (file.withExtension []).normal.names = above ++ [stem] := by
  obtain ⟨front, hfront, hbare⟩ :=
    components_withExtension_nil hfile.absolute hname hsplit hstem
  have hcomponents := hfile.components_eq
  rcases List.eq_nil_or_concat' file.normal.names with hnil | ⟨above, last, habove⟩
  · rw [hfront, hnil] at hcomponents
    exact absurd (congrArg List.getLast? hcomponents) (by simp)
  · rw [hfront, habove, List.map_append, ← List.cons_append] at hcomponents
    obtain ⟨rfl, hlast⟩ := List.append_inj' hcomponents rfl
    obtain rfl : name = last := by simpa using hlast
    have hnames : (file.withExtension []).components =
        .root :: (above ++ [stem]).map Component.normal := by simp [hbare]
    obtain ⟨hdirect, hnormal⟩ := IsDirect.of_components hnames
    exact ⟨hdirect, above, habove, by rw [hnormal]⟩

end Path

end LiveLoader
