import LiveLoader.Proofs.Path.Direct
import LiveLoader.Proofs.Path.Relative
import LiveLoader.Proofs.Routes.Table

/-!
# Module specifiers

Between rooted paths without `..` the relative path is a climb and then names. Its first piece tells
the one from the other, and behind `./` the names stay what they are, so a specifier leads from the
directory back to the file.
-/

namespace LiveLoader.Routes

open Text

/-- A text is a climb if its first piece is a `..`. -/
theorem climbs_iff (t : List Char) : (t = "..".toList ∨ "../".toList.isPrefixOf t) ↔
    (pieces '/' t).head? = some ['.', '.'] := by
  constructor
  · rintro (rfl | h)
    · rfl
    · obtain ⟨r, rfl⟩ := List.isPrefixOf_iff_prefix.mp h
      have hparent : '/' ∉ ['.', '.'] := by decide
      have hpieces := pieces_append hparent r
      exact congrArg List.head? hpieces
  · intro h
    obtain ⟨ps, hps⟩ := List.head?_eq_some_iff.mp h
    rw [← joinPieces_pieces '/' t, hps]
    cases ps with
    | nil => exact .inl rfl
    | cons p ps =>
      refine .inr (List.isPrefixOf_iff_prefix.mpr ⟨joinPieces '/' (p :: ps), ?_⟩)
      rfl

/-- The text of a way that climbs by some steps and then goes down by names. -/
def wayText (steps : Nat) (names : List (List Char)) : List Char :=
  joinPieces '/' (List.replicate steps ['.', '.'] ++ names)

theorem climbs_wayText {steps : Nat} {names : List (List Char)}
    (h : ∀ name ∈ names, IsName name) :
    (pieces '/' (wayText steps names)).head? = some ['.', '.'] ↔ steps ≠ 0 := by
  have hpieces : ∀ p ∈ List.replicate steps ['.', '.'] ++ names, '/' ∉ p := by
    intro p hp
    rcases List.mem_append.mp hp with hp | hp
    · rw [List.eq_of_mem_replicate hp]
      decide
    · exact (h p hp).notMem
  unfold wayText
  cases steps with
  | succ k =>
    rw [pieces_joinPieces (by simp [List.replicate_succ]) hpieces]
    simp [List.replicate_succ]
  | zero =>
    cases names with
    | nil => decide
    | cons name names =>
      rw [pieces_joinPieces (by simp) hpieces]
      simpa using (h name List.mem_cons_self).ne_parent

/-- A specifier that climbs by some steps and goes down by names; without a climb it begins at the
directory itself. -/
def directions (steps : Nat) (names : List (List Char)) : List Char :=
  (if steps = 0 then "./".toList else []) ++ wayText steps names

theorem directions_begins (steps : Nat) {names : List (List Char)}
    (h : ∀ name ∈ names, IsName name) :
    "./".toList <+: directions steps names ∨ "../".toList <+: directions steps names ∨
      directions steps names = "..".toList := by
  unfold directions
  cases steps with
  | zero => exact .inl (List.prefix_append _ _)
  | succ k =>
    have hclimbs := (climbs_iff _).mpr ((climbs_wayText h).mpr (Nat.succ_ne_zero k))
    rw [if_neg (Nat.succ_ne_zero k), List.nil_append]
    rcases hclimbs with hclimbs | hclimbs
    · exact .inr (.inr hclimbs)
    · exact .inr (.inl (List.isPrefixOf_iff_prefix.mp hclimbs))

/-- To begin at the directory itself changes nothing. -/
theorem foldl_push_here {p : Path} (relative : p.isAbsolute = false) (n : Path.Normal) :
    (Path.mk ("./".toList ++ p.text)).components.foldl Path.Normal.push n =
      p.components.foldl Path.Normal.push n := by
  have hrelative : (Path.mk ("./".toList ++ p.text)).isAbsolute = false := by rfl
  have hdot : '/' ∉ ['.'] := by decide
  have hpieces : pieces '/' ("./".toList ++ p.text) = ['.'] :: pieces '/' p.text :=
    pieces_append hdot p.text
  rw [← Path.foldl_push_pieces hrelative, ← Path.foldl_push_pieces relative, hpieces]
  rfl

section

variable {dir file : Path} {shared bs ts : List (List Char)}
  (hdir : dir.IsDirect) (hfile : file.IsDirect)
  (hslash : ∀ name ∈ file.normal.names, '\\' ∉ name)
  (hb : dir.normal.names = shared ++ bs) (ht : file.normal.names = shared ++ ts)
  (parted : Path.Parted ts bs)

include hdir hfile hb ht parted

theorem relative_of_isDirect : Path.relative dir file =
    Path.spell false (List.replicate bs.length ['.', '.'] ++ ts) := by
  have hparent : bs.head? ≠ some ['.', '.'] := fun h =>
    (Path.isName_of_names_append hb _ (List.mem_of_head? h)).ne_parent rfl
  rw [Path.relative_of_parted hdir.absolute hfile.absolute (hdir.pieces_eq.trans hb)
    (hfile.pieces_eq.trans ht) parted, if_neg fun h => hparent h.2]

include hslash

/-- A specifier climbs over what the directory does not share with the file. -/
theorem specifier_of_parted : specifier dir file = directions bs.length ts := by
  have hnames : ∀ name ∈ ts, IsName name := Path.isName_of_names_append ht
  have hnoslash : '\\' ∉ wayText bs.length ts := by
    intro hmem
    obtain ⟨p, hp, hc⟩ := (mem_joinPieces (by decide)).mp hmem
    rcases List.mem_append.mp hp with hp | hp
    · rw [List.eq_of_mem_replicate hp] at hc
      exact absurd hc (by decide)
    · exact hslash p (ht ▸ List.mem_append_right _ hp) hc
  have htext : (Path.relative dir file).toSlash = wayText bs.length ts := by
    rw [relative_of_isDirect hdir hfile hb ht parted]
    exact exchange_of_notMem hnoslash
  unfold specifier directions
  simp only [htext, Bool.or_eq_true, decide_eq_true_eq, climbs_iff, climbs_wayText hnames]
  by_cases h : bs.length = 0 <;> simp [h]

end

section

variable {dir file : Path} (hdir : dir.IsDirect) (hfile : file.IsDirect) (hslash : '\\' ∉ file.text)

include hdir hfile hslash

/-- A specifier is never bare and never rooted. -/
theorem specifier_begins :
    "./".toList <+: specifier dir file ∨ "../".toList <+: specifier dir file ∨
      specifier dir file = "..".toList := by
  obtain ⟨shared, ts, bs, ht, hb, parted⟩ := Path.exists_parted file.normal.names dir.normal.names
  rw [specifier_of_parted hdir hfile (hfile.notMem_name hslash) hb ht parted]
  exact directions_begins bs.length (Path.isName_of_names_append ht)

/-- A specifier leads from the directory to the file. -/
theorem normalize_join_specifier :
    (dir.join ⟨specifier dir file⟩).normalize = file.normalize := by
  obtain ⟨shared, ts, bs, ht, hb, parted⟩ := Path.exists_parted file.normal.names dir.normal.names
  have hpieces : file.normal.pieces = shared ++ ts := hfile.pieces_eq.trans ht
  have hall : ∀ p ∈ List.replicate bs.length ['.', '.'] ++ ts, IsPiece p :=
    Path.isPiece_of_way hpieces
  have hrelative : (Path.mk (wayText bs.length ts)).isAbsolute = false :=
    Path.isAbsolute_spell (r := false) hall
  have hleads : (Path.mk (wayText bs.length ts)).components.foldl Path.Normal.push dir.normal =
      file.normal :=
    Path.foldl_push_spell hdir.absolute hfile.absolute (hdir.pieces_eq.trans hb) hpieces
  have hspecifier : (Path.mk (specifier dir file)).isAbsolute = false ∧
      (Path.mk (specifier dir file)).components.foldl Path.Normal.push dir.normal =
        file.normal := by
    rw [specifier_of_parted hdir hfile (hfile.notMem_name hslash) hb ht parted, directions]
    split
    case isTrue => exact ⟨rfl, (foldl_push_here hrelative _).trans hleads⟩
    case isFalse => exact ⟨hrelative, hleads⟩
  rw [(Path.normalize_eq _).1, Path.normal_join hspecifier.1 hdir.absolute, hspecifier.2,
    ← (Path.normalize_eq file).1]

/-- Files have one specifier only if they are the same place. -/
theorem specifier_eq_iff {other : Path} (hother : other.IsDirect) (hslash' : '\\' ∉ other.text) :
    specifier dir other = specifier dir file ↔ other.same file = true := by
  rw [Path.same_iff_normalize hother hfile]
  constructor
  · intro h
    rw [← normalize_join_specifier hdir hother hslash', h,
      normalize_join_specifier hdir hfile hslash]
  · intro h
    unfold specifier Path.relative
    rw [h]

end

theorem metaImports_eq (pages : List Page) (dir : Path) :
    (descriptors pages dir).map Descriptor.metaImport = pages.map (specifier dir ·.file) :=
  List.ext_getElem (by simp [descriptors]) (by simp [descriptors, Descriptor.ofPage])

/-- The relative path from one rooted path to another leads back to it. Among rooted paths without
`..` and backslashes a specifier begins as one of a file near the module, leads back to its file, and
is that of no other file; so the pages of a table have as many metadata specifiers as files. -/
theorem specifiers_lead_back :
    (∀ base target : Path, base.isAbsolute = true → target.isAbsolute = true →
      (base.normalize.join (Path.relative base target)).normalize = target.normalize) ∧
    (∀ dir file : Path, dir.IsDirect → file.IsDirect → '\\' ∉ file.text →
      ("./".toList <+: specifier dir file ∨ "../".toList <+: specifier dir file ∨
        specifier dir file = "..".toList) ∧
      (dir.join ⟨specifier dir file⟩).normalize = file.normalize ∧
      ∀ other : Path, other.IsDirect → '\\' ∉ other.text →
        (specifier dir other = specifier dir file ↔ other.same file = true)) ∧
    ∀ (dir : Path) (pages : List Page), dir.IsDirect →
      (∀ page ∈ pages, page.file.IsDirect ∧ '\\' ∉ page.file.text) →
      (pages.Pairwise fun p q => p.file.same q.file = false) →
      ((descriptors pages dir).map Descriptor.metaImport).Nodup := by
  refine ⟨fun base target => Path.normalize_join_relative, ?_, ?_⟩
  · intro dir file hdir hfile hslash
    exact ⟨specifier_begins hdir hfile hslash, normalize_join_specifier hdir hfile hslash,
      fun other => specifier_eq_iff hdir hfile hslash⟩
  · intro dir pages hdir hpages hapart
    rw [metaImports_eq, List.Nodup, List.pairwise_map]
    refine hapart.imp_of_mem fun {p q} hp hq hpq heq => ?_
    have hsame := (specifier_eq_iff hdir (hpages q hq).1 (hpages q hq).2 (hpages p hp).1
      (hpages p hp).2).mp heq
    rw [hpq] at hsame
    cases hsame

/-- A `..` above the root is shared, a name with two dots in front is no climb, and the directory
itself has a specifier. -/
theorem specifiers_lead_back_trial :
    ((Path.normalize "/../a").join (Path.relative "/../a" "/../b")).normalize =
        Path.normalize "/../b" ∧
      (Path.join "/app/src" ⟨specifier "/app/src" "/app/src/..pages/a.ts"⟩).normalize =
        Path.normalize "/app/src/..pages/a.ts" ∧
      ((descriptors [⟨"/a".toList, "/app/a.ts"⟩, ⟨"/b".toList, "/app//src/./"⟩] "/app/src").map
        Descriptor.metaImport).Nodup :=
  ⟨specifiers_lead_back.1 _ _ (by decide) (by decide),
    (specifiers_lead_back.2.1 _ _ (by decide) (by decide) (by decide)).2.1,
    specifiers_lead_back.2.2 _ _ (by decide) (by decide) (by decide)⟩

end LiveLoader.Routes
