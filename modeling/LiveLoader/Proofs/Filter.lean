import LiveLoader.Proofs.Text.CaseFold
import LiveLoader.Proofs.Text.Pieces
import LiveLoader.SourceFile

/-!
# What filters accept

A filter accepts the texts with an ending that its places spell. Where case counts these endings can
be listed, so the filters for source files are tests of a few extensions. The filter for a text is
written with each special character of it escaped, and reading that gives the filter back: it accepts
what ends with the text, up to case where case is ignored.
-/

namespace LiveLoader

open Text

namespace Filter

theorem accept_iff {f : Filter} {s : List Char} :
    f.accept s = true ↔ ∃ t, t <:+ s ∧ fills f.ignoreCase f.places t = true := by
  induction s with
  | nil => simp [accept]
  | cons c s ih => simp [accept, ih, List.suffix_cons_iff, or_and_right, exists_or]

/-- The texts that fill places where case counts. -/
def spellings : List Place → List (List Char)
  | [] => [[]]
  | p :: ps => (p.chars.flatMap fun c => (spellings ps).map (c :: ·))
    ++ if p.optional then spellings ps else []

theorem fills_iff {ps : List Place} {t : List Char} :
    fills false ps t = true ↔ t ∈ spellings ps := by
  induction ps generalizing t with
  | nil => cases t <;> simp [fills, spellings]
  | cons p ps ih =>
    cases t with
    | nil => cases h : p.optional <;> simp [fills, spellings, ih, h]
    | cons c t => cases h : p.optional <;> simp [fills, spellings, accepts, ih, h]

theorem accept_iff_spellings {f : Filter} (exact : f.ignoreCase = false) {s : List Char} :
    f.accept s = true ↔ ∃ e ∈ spellings f.places, e <:+ s := by
  rw [accept_iff, exact]
  simp only [fills_iff, and_comm]

theorem fills_literal_iff {s t : List Char} :
    fills true (literal true s).places t = true ↔ AlikeUpToCase t s := by
  unfold literal AlikeUpToCase
  induction s generalizing t with
  | nil => simp [fills]
  | cons c s ih =>
    cases t with
    | nil => simp [fills]
    | cons d t => simp [fills, accepts, sameFolded, ih]

theorem accept_literal_iff {s t : List Char} :
    (literal true s).accept t = true ↔ ∃ ending, ending <:+ t ∧ AlikeUpToCase ending s := by
  rw [accept_iff]
  exact exists_congr fun ending => and_congr_right fun _ => fills_literal_iff

theorem text_literal (ignoreCase : Bool) (s : List Char) :
    (literal ignoreCase s).text =
      (if ignoreCase then "(?i)".toList else []) ++ escape s ++ ['$'] := by
  simp only [text, literal, List.flatMap_map, Place.text, Bool.false_eq_true, if_false,
    List.append_nil]
  rfl

/-- Behind a backslash a character stands for itself, and so does one that is not special. The next
character is no question mark, for that one is escaped. -/
theorem readPlaces?_escapeChar (c : Char) {r : List Char} (hr : r.head? ≠ some '?') :
    readPlaces? none (escapeChar c ++ r) = (readPlaces? none r).map (⟨[c], false⟩ :: ·) := by
  have hnot : ∀ t, r ≠ '?' :: t := by
    rintro t rfl
    exact hr rfl
  unfold escapeChar
  split
  case isTrue hspecial =>
    rw [List.cons_append, List.cons_append, List.nil_append, readPlaces?, if_pos hspecial]
    exact hnot
  case isFalse hplain =>
    have hne : ∀ d ∈ special, c ≠ d := fun d hd h => hplain (h ▸ hd)
    rw [List.cons_append, List.nil_append, readPlaces?, if_neg hplain]
    · exact fun h _ => hne '$' (by decide) h
    · exact fun _ _ h _ => hne '\\' (by decide) h
    · exact fun _ _ h _ => hne '\\' (by decide) h
    · exact hne '[' (by decide)
    · exact hnot

theorem head?_escape_ne (s : List Char) : (escape s ++ ['$']).head? ≠ some '?' := by
  cases s with
  | nil => decide
  | cons c s =>
    simp only [escape, List.flatMap_cons, escapeChar]
    split
    case isTrue => simp
    case isFalse h =>
      rintro hc
      obtain rfl : c = '?' := by simpa using hc
      exact h (by decide)

theorem readPlaces?_escape (s : List Char) :
    readPlaces? none (escape s ++ ['$']) = some (s.map fun c => ⟨[c], false⟩) := by
  induction s with
  | nil => rfl
  | cons c s ih =>
    rw [escape, List.flatMap_cons, List.append_assoc, ← escape,
      readPlaces?_escapeChar c (head?_escape_ne s), ih]
    rfl

/-- The written form of the filter for a text denotes that filter. -/
theorem read?_text_literal (s : List Char) :
    read? (literal true s).text = some (literal true s) := by
  rw [text_literal, if_pos rfl, List.append_assoc, read?,
    if_pos (List.isPrefixOf_iff_prefix.mpr (List.prefix_append _ _)), List.drop_left' (by decide),
    readPlaces?_escape]
  rfl

end Filter

namespace SourceFile

/-- The endings of the framework's sources. -/
def frameworkEndings : List (List Char) := [".cts".toList, ".mts".toList, ".ts".toList]

/-- The endings of scripts. -/
def scriptEndings : List (List Char) :=
  [".cjsx".toList, ".cjs".toList, ".ctsx".toList, ".cts".toList, ".mjsx".toList, ".mjs".toList,
    ".mtsx".toList, ".mts".toList, ".jsx".toList, ".js".toList, ".tsx".toList, ".ts".toList]

theorem frameworkEndings_subset : frameworkEndings ⊆ scriptEndings := by decide

/-- A filter that spells endings without separators can be asked about the text of a path. -/
theorem acceptPath_iff {f : Filter} (exact : f.ignoreCase = false)
    (plain : ∀ e ∈ Filter.spellings f.places, '\\' ∉ e ∧ '/' ∉ e) {p : Path} :
    f.acceptPath p = true ↔ ∃ e ∈ Filter.spellings f.places, e <:+ p.text := by
  rw [Filter.acceptPath, Path.toSlash, Filter.accept_iff_spellings exact]
  refine exists_congr fun e => and_congr_right fun he => ?_
  exact suffix_exchange_iff (plain e he).1 (plain e he).2

theorem isVendored_iff {p : Path} :
    p.isVendored = true ↔ Component.normal "node_modules".toList ∈ p.components := by
  simp [Path.isVendored]

/-- The files of some endings that do not belong to packages. -/
theorem own_and_acceptPath_iff {f : Filter} (exact : f.ignoreCase = false)
    {endings : List (List Char)} (hspell : Filter.spellings f.places = endings)
    (plain : ∀ e ∈ endings, '\\' ∉ e ∧ '/' ∉ e) {p : Path} :
    (!p.isVendored && f.acceptPath p) = true ↔
      Component.normal "node_modules".toList ∉ p.components ∧ ∃ e ∈ endings, e <:+ p.text := by
  subst hspell
  rw [Bool.and_eq_true, Bool.not_eq_true', Bool.eq_false_iff, acceptPath_iff exact plain, ne_eq,
    isVendored_iff]

theorem isFramework_iff {p : Path} : isFramework p = true ↔
    Component.normal "node_modules".toList ∉ p.components ∧
      ∃ e ∈ frameworkEndings, e <:+ p.text :=
  own_and_acceptPath_iff rfl (by decide) (by decide)

theorem isScript_iff {p : Path} : isScript p = true ↔
    Component.normal "node_modules".toList ∉ p.components ∧ ∃ e ∈ scriptEndings, e <:+ p.text :=
  own_and_acceptPath_iff rfl (by decide) (by decide)

end SourceFile

end LiveLoader
