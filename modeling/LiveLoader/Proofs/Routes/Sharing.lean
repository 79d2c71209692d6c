import Mathlib.Data.List.Nodup
import LiveLoader.Proofs.Routes.Pattern
import LiveLoader.Proofs.Routes.Scan
import LiveLoader.Proofs.Routes.Table

/-!
# Routes that share a pattern

No two pages of a scan have one key, but some have one pattern: it does not tell one catch-all from
another, nor a parameter from a text that is written like it. Keys that differ in nothing else share
their pattern, and all others have patterns of their own.
-/

namespace LiveLoader

open Text

namespace Text

/-- What stands between two texts. -/
def within? (opening closing s : List Char) : Option (List Char) :=
  (s.dropPrefix? opening).bind fun r => r.dropSuffix? closing

theorem within?_eq_some {opening closing s name : List Char}
    (h : within? opening closing s = some name) : s = opening ++ name ++ closing := by
  obtain ⟨r, hr, hname⟩ := Option.bind_eq_some_iff.mp h
  obtain ⟨o, rfl, ho⟩ := List.dropPrefix?_eq_some_iff.mp hr
  obtain ⟨c, rfl, hc⟩ := List.dropSuffix?_eq_some_iff.mp hname
  rw [eq_of_beq ho, eq_of_beq hc, List.append_assoc]

end Text

namespace Routes

namespace KeyPiece

/-- The piece that fills the place between two slashes. -/
def ofSegment (s : List Char) : KeyPiece :=
  match within? "[[...".toList "]]".toList s with
  | some name => catchAll true name
  | none =>
    match within? "[...".toList "]".toList s with
    | some name => catchAll false name
    | none =>
      match within? "[".toList "]".toList s with
      | some name => parameter name
      | none => literal s

theorem source_ofSegment (s : List Char) : (ofSegment s).source = s := by
  unfold ofSegment
  split
  · next name h => simpa [source] using (within?_eq_some h).symm
  · split
    · next name h => simpa [source] using (within?_eq_some h).symm
    · split
      · next name h => simpa [source] using (within?_eq_some h).symm
      · rfl

/-- The piece as far as its pattern tells: catch-alls are all alike, and a text may look like the
pattern of another piece. -/
def kind : KeyPiece → KeyPiece
  | literal (':' :: name) => parameter name
  | literal ['*', '*'] => catchAll false []
  | literal text => literal text
  | parameter name => parameter name
  | catchAll _ _ => catchAll false []

/-- Reads what a pattern tells of a piece. -/
def ofPattern : List Char → KeyPiece
  | ':' :: name => parameter name
  | ['*', '*'] => catchAll false []
  | text => literal text

theorem ofPattern_pattern (p : KeyPiece) : ofPattern p.pattern = p.kind := by
  cases p with
  | literal text =>
    unfold pattern ofPattern kind
    split <;> simp_all
  | parameter name => rfl
  | catchAll doubled name => rfl

theorem pattern_kind (p : KeyPiece) : p.kind.pattern = p.pattern := by
  cases p with
  | literal text =>
    unfold kind
    split <;> simp_all [pattern]
  | parameter name => rfl
  | catchAll doubled name => rfl

theorem map_pattern_eq_iff {ps qs : List KeyPiece} :
    ps.map pattern = qs.map pattern ↔ ps.map kind = qs.map kind := by
  constructor
  · intro h
    simpa [ofPattern_pattern, Function.comp_def] using congrArg (List.map ofPattern) h
  · intro h
    simpa [pattern_kind, Function.comp_def] using congrArg (List.map pattern) h

theorem slash_notMem_pattern {p : KeyPiece} (h : '/' ∉ p.source) : '/' ∉ p.pattern := by
  cases p with
  | literal text => exact h
  | parameter name => simp_all [source, pattern]
  | catchAll doubled name => simp [pattern]

end KeyPiece

open KeyPiece

/-- The segments of a key behind its first slash. -/
def segments (key : List Char) : List KeyPiece := (pieces '/' key.tail).map ofSegment

theorem segments_ne_nil (key : List Char) : segments key ≠ [] := by
  simp [segments, pieces_ne_nil]

theorem map_source_segments (key : List Char) :
    (segments key).map source = pieces '/' key.tail := by
  simp [segments, source_ofSegment, Function.comp_def]

/-- A key is its segments, each with a slash in front. -/
theorem key_eq {key : List Char} (rooted : key.head? = some '/') :
    key = (segments key).flatMap fun p => '/' :: p.source := by
  obtain ⟨r, rfl⟩ := List.head?_eq_some_iff.mp rooted
  have h : '/' :: joinPieces '/' (pieces '/' r) = _ := cons_joinPieces (pieces_ne_nil '/' r)
  rw [joinPieces_pieces] at h
  rw [← List.flatMap_map, map_source_segments]
  exact h

theorem urlPattern_eq {key : List Char} (rooted : key.head? = some '/')
    (sound : ∀ p ∈ segments key, p.Sound) :
    urlPattern key = joinPieces '/' ((segments key).map pattern) := by
  let ps := (segments key).flatMap fun p => [literal ['/'], p]
  have hps : ∀ p ∈ ps, p.Sound := by
    intro p hp
    obtain ⟨q, hq, hp⟩ := List.mem_flatMap.mp hp
    rcases List.mem_pair.mp hp with rfl | rfl
    · exact by decide
    · exact sound p hq
  have hsource : ps.flatMap source = key := by
    refine Eq.trans ?_ (key_eq rooted).symm
    simp [ps, List.flatMap_assoc, source]
  have hpattern : ps.flatMap pattern = '/' :: joinPieces '/' ((segments key).map pattern) := by
    have hne : (segments key).map pattern ≠ [] := by simp [segments_ne_nil]
    rw [cons_joinPieces hne, List.flatMap_map]
    simp [ps, List.flatMap_assoc, pattern]
  have h := urlPattern_of_pieces hps
  rw [hsource, hpattern] at h
  exact h

/-- Keys share a pattern exactly if their segments are of the same kinds. -/
theorem urlPattern_eq_iff {k l : List Char} (hk : k.head? = some '/') (hl : l.head? = some '/')
    (soundk : ∀ p ∈ segments k, p.Sound) (soundl : ∀ p ∈ segments l, p.Sound) :
    urlPattern k = urlPattern l ↔ (segments k).map kind = (segments l).map kind := by
  have hne (key : List Char) : (segments key).map pattern ≠ [] := by simp [segments_ne_nil]
  have hslash (key : List Char) : ∀ s ∈ (segments key).map pattern, '/' ∉ s := by
    intro s hs
    obtain ⟨p, hp, rfl⟩ := List.mem_map.mp hs
    have hsource : p.source ∈ pieces '/' key.tail := by
      rw [← map_source_segments]
      exact List.mem_map_of_mem hp
    exact slash_notMem_pattern (notMem_of_mem_pieces hsource)
  rw [urlPattern_eq hk soundk, urlPattern_eq hl soundl,
    joinPieces_inj (hne k) (hne l) (hslash k) (hslash l), map_pattern_eq_iff]

theorem head?_routeKey (pagesDir file : Path) : (routeKey pagesDir file).head? = some '/' := by
  unfold routeKey
  generalize (((file.below? pagesDir).getD file).withExtension []).toSlash = s
  simp only
  split
  case isTrue => rfl
  case isFalse hindex =>
    cases hdrop : dropEnd? "/index".toList ('/' :: s) with
    | none => rfl
    | some key =>
      have hkey := dropEnd?_eq_some.mp hdrop
      cases key with
      | nil => exact absurd hkey hindex
      | cons c key => exact congrArg some (List.cons.inj hkey).1.symm

/-- The keys of a scan are distinct. If each segment of them is a text without brackets or a name in
brackets, the patterns of the routes are distinct exactly if no two pages have segments of the same
kinds; so they are if no segment can be taken for another. -/
theorem patterns_of_scan {fs : FileSystem} {pagesDir : Path} (dir : Path)
    (sound : ∀ page ∈ (scan fs pagesDir).value, ∀ p ∈ segments page.key, p.Sound) :
    let pages := (scan fs pagesDir).value
    let patterns := (descriptors pages dir).map Descriptor.urlPattern
    (pages.map Page.key).Nodup ∧
    (patterns.Nodup ↔ ∀ a ∈ pages, ∀ b ∈ pages,
      (segments a.key).map kind = (segments b.key).map kind → a = b) ∧
    ((∀ page ∈ pages, ∀ p ∈ segments page.key, p.kind = p) → patterns.Nodup) := by
  intro pages patterns
  obtain ⟨files, hfiles, hnodup⟩ := exists_scan fs pagesDir
  have hkeys : (pages.map Page.key).Nodup := by
    rw [show pages = _ from hfiles, List.map_map]
    exact hnodup
  have rooted : ∀ page ∈ pages, page.key.head? = some '/' := by
    intro page hpage
    rw [show pages = _ from hfiles] at hpage
    obtain ⟨file, -, rfl⟩ := List.mem_map.mp hpage
    exact head?_routeKey pagesDir file
  have hpatterns : patterns = pages.map fun page => urlPattern page.key :=
    List.ext_getElem (by simp [patterns, descriptors])
      (by simp [patterns, descriptors, Descriptor.ofPage])
  have hiff : patterns.Nodup ↔ ∀ a ∈ pages, ∀ b ∈ pages,
      (segments a.key).map kind = (segments b.key).map kind → a = b := by
    rw [hpatterns, List.nodup_map_iff_inj_on (List.Nodup.of_map _ hkeys)]
    refine forall₂_congr fun a ha => forall₂_congr fun b hb => ?_
    rw [urlPattern_eq_iff (rooted a ha) (rooted b hb) (sound a ha) (sound b hb)]
  refine ⟨hkeys, hiff, fun plain => hiff.mpr fun a ha b hb h => ?_⟩
  rw [List.map_congr_left (plain a ha), List.map_congr_left (plain b hb), List.map_id',
    List.map_id'] at h
  refine List.inj_on_of_nodup_map hkeys ha hb ?_
  rw [key_eq (rooted a ha), key_eq (rooted b hb), h]

namespace Trial

def page (names : List String) : Location × Entry := (names.map String.toList, .file (some []))

def folder (names : List String) : Location × Entry := (names.map String.toList, .directory)

/-- Two pages in a directory. -/
def guide (first second : String) : FileSystem :=
  ⟨"/", [folder ["p"], folder ["docs", "p"], page [first, "docs", "p"],
    page [second, "docs", "p"]]⟩

/-- The pages of the directory are found as they are listed there. -/
theorem scan_guide {first second : String} (tree : (guide first second).IsTree ["p".toList])
    (listed : listing (guide first second) ["docs".toList, "p".toList] =
      [(first.toList, .file (some [])), (second.toList, .file (some []))]) :
    scan (guide first second) "/p" = distinctPages "/p" []
      (([["docs".toList, first.toList], ["docs".toList, second.toList]].filter
        fun x => isPage (Path.descend "/p" x)).map (Path.descend "/p")) := by
  have located : (guide first second).locate "/p" = .ok ["p".toList] := by rfl
  have children : (guide first second).children ["p".toList] = [("docs".toList, .directory)] := by
    rfl
  have docs : listing (guide first second) ["p".toList] = [("docs".toList, .directory)] := by
    rw [listing, children, List.mergeSort_singleton]
  have bound : walkBound (guide first second) = 18 + 1 + 1 := by rfl
  have hplaces : places (guide first second) ["p".toList] =
      [["docs".toList, first.toList], ["docs".toList, second.toList]] := by
    rw [places, bound]
    simp only [placesBelow, docs, listed, placesOf, List.flatMap_cons, List.flatMap_nil]
    rfl
  rw [scan_of_located located tree, pagePlaces, hplaces]

end Trial

/-- A catch-all beside the page of the directory itself. -/
theorem patterns_of_scan_trial :
    (descriptors (scan (Trial.guide "[...slug].ts" "index.ts") "/p").value "/").map
      Descriptor.urlPattern = ["docs/**".toList, "docs".toList] ∧
    ((descriptors (scan (Trial.guide "[...slug].ts" "index.ts") "/p").value "/").map
      Descriptor.urlPattern).Nodup := by
  have tree : (Trial.guide "[...slug].ts" "index.ts").IsTree ["p".toList] := by
    refine ⟨by decide, by decide, by decide, ?_⟩
    simp [Trial.guide, Trial.page, Trial.folder]
  have hscan := Trial.scan_guide tree
    ((List.mergeSort_of_pairwise (by decide +kernel)).trans (by decide +kernel))
  have sound : ∀ page ∈ (scan (Trial.guide "[...slug].ts" "index.ts") "/p").value,
      ∀ p ∈ segments page.key, p.Sound := by
    rw [hscan]
    decide +kernel
  obtain ⟨-, distinct, -⟩ := patterns_of_scan "/" sound
  refine ⟨?_, distinct.mpr ?_⟩
  · rw [hscan]
    decide +kernel
  · rw [hscan]
    decide +kernel

/-- Two catch-alls in one directory are both kept without a warning, and their patterns are one. -/
theorem catchAlls_share_pattern :
    (Trial.guide "[...a].ts" "[...b].ts").IsTree ["p".toList] ∧
      (scan (Trial.guide "[...a].ts" "[...b].ts") "/p").log = [] ∧
      (descriptors (scan (Trial.guide "[...a].ts" "[...b].ts") "/p").value "/").map
        Descriptor.urlPattern = ["docs/**".toList, "docs/**".toList] := by
  have tree : (Trial.guide "[...a].ts" "[...b].ts").IsTree ["p".toList] := by
    refine ⟨by decide, by decide, by decide, ?_⟩
    simp [Trial.guide, Trial.page, Trial.folder]
  have hscan := Trial.scan_guide tree
    ((List.mergeSort_of_pairwise (by decide +kernel)).trans (by decide +kernel))
  refine ⟨tree, ?_, ?_⟩
  · rw [hscan]
    decide +kernel
  · rw [hscan]
    decide +kernel

end Routes

end LiveLoader
