import LiveLoader.Proofs.Resource.Styles
import LiveLoader.Proofs.Text.Bytes

/-!
# Splicing resources

The properties of components stand apart in the source, and replacements at places that are apart can
be made in any order. What comes of them is the source read from left to right, with nothing changed
but the properties. This holds of its characters, and so of its bytes.
-/

namespace LiveLoader

namespace Text

theorem bytes_append (s t : List Char) : bytes (s ++ t) = bytes s ++ bytes t := List.flatMap_append

/-- How many bytes stand in front of a position. -/
def offset (s : List Char) (i : Nat) : Nat := (bytes (s.take i)).length

theorem bytes_split (s : List Char) (i : Nat) :
    bytes s = bytes (s.take i) ++ bytes (s.drop i) := by
  rw [← bytes_append, List.take_append_drop]

theorem bytes_take (s : List Char) (i : Nat) : bytes (s.take i) = (bytes s).take (offset s i) := by
  rw [bytes_split s i, offset, List.take_left]

theorem bytes_drop (s : List Char) (i : Nat) : bytes (s.drop i) = (bytes s).drop (offset s i) := by
  rw [bytes_split s i, offset, List.drop_left]

/-- The bytes of a part stand between the offsets of its ends. -/
theorem bytes_slice (s : List Char) {i j : Nat} (h : i ≤ j) :
    bytes (slice s ⟨i, j⟩) = ((bytes s).take (offset s j)).drop (offset s i) := by
  have hoffset : offset (s.take j) i = offset s i := by
    rw [offset, offset, List.take_take, Nat.min_eq_left h]
  rw [slice, ← List.drop_take, bytes_drop, bytes_take, hoffset]

/-- Bytes from an offset on, read from left to right with what stands between two offsets exchanged for
other bytes. -/
def weaveBytes (b : List UInt8) : Nat → List (Nat × Nat × List UInt8) → List UInt8
  | pos, [] => b.drop pos
  | pos, (start, stop, new) :: rest => (b.take start).drop pos ++ new ++ weaveBytes b stop rest

/-- A replacement with its place in bytes. -/
def Replacement.inBytes (s : List Char) (r : Replacement) : Nat × Nat × List UInt8 :=
  (offset s r.span.start, offset s r.span.stop, bytes r.text)

theorem bytes_weave {s : List Char} {rs : List Replacement}
    (inOrder : InOrder s (rs.map Replacement.span)) {pos : Nat}
    (hpos : ∀ r ∈ rs, pos ≤ r.span.start) :
    bytes (weave s pos rs) =
      weaveBytes (bytes s) (offset s pos) (rs.map (Replacement.inBytes s)) := by
  induction rs generalizing pos with
  | nil => exact bytes_drop s pos
  | cons r rs ih =>
    have hrest : ∀ q ∈ rs, r.span.stop ≤ q.span.start := fun q hq =>
      List.rel_of_pairwise_cons inOrder.before (List.mem_map_of_mem hq)
    rw [weave, bytes_append, bytes_append, bytes_slice s (hpos r List.mem_cons_self),
      ih inOrder.tail hrest]
    rfl

end Text

namespace Resource

open Syntax Text

/-- What is made of some members of a list has the places of these members. -/
theorem map_filterMap_sublist {f : α → Option β} {place : β → γ} {place' : α → γ}
    (h : ∀ a b, f a = some b → place b = place' a) (as : List α) :
    ((as.filterMap f).map place).Sublist (as.map place') := by
  induction as with
  | nil => exact .slnil
  | cons a as ih =>
    cases hf : f a with
    | none =>
      rw [List.filterMap_cons_none hf]
      exact ih.cons _
    | some b =>
      rw [List.filterMap_cons_some hf, List.map_cons, h a b hf]
      exact ih.cons_cons _

/-- Nothing is replaced but properties that were given, each at most once. -/
theorem places_of_inlineAll {digest : List Char → String} {host : ResourceHost} {fs : FileSystem}
    {component : Path} {qs : List MetadataProperty} {inlined : Inlined}
    (h : Build.result (inlineAll digest host fs component qs) = .ok inlined) :
    (inlined.replacements.map Replacement.span).Sublist (qs.map MetadataProperty.span) := by
  rw [replacements_inlineAll h]
  exact map_filterMap_sublist (fun _ _ => span_of_replacement?) qs

/-- In a program whose parts stand apart, the properties of all classes stand apart, and each takes up
some of the source; inlining replaces nothing else. Replacements at such places, in whatever order they
are given, each find their place in the text and give the text read from left to right, with the parts
at these places exchanged and all other bytes as they were. -/
theorem splice_of_apart_places :
    (∀ {d : Dialect} {source : List Char} {p : Program} {problems : Nat},
      read d source = .tree p problems → p.WellPlaced →
      ((properties p).map MetadataProperty.span).Pairwise Span.Apart ∧
      (∀ q ∈ properties p, q.span.start < q.span.stop ∧ q.span.stop ≤ source.length) ∧
      ∀ digest host fs component inlined,
        Build.result (inlineAll digest host fs component (properties p)) = .ok inlined →
        (inlined.replacements.map Replacement.span).Sublist
          ((properties p).map MetadataProperty.span)) ∧
    ∀ (s : List Char) (rs : List Replacement), (rs.map Replacement.span).Pairwise Span.Apart →
      (∀ r ∈ rs, r.span.start < r.span.stop ∧ r.span.stop ≤ s.length) →
      ∃ front : List Replacement, front.Perm rs ∧
        (front.map Replacement.span).Pairwise Span.Before ∧
        bytes (weave s 0 front) = weaveBytes (bytes s) 0 (front.map (Replacement.inBytes s)) ∧
        ∀ rs' : List Replacement, rs'.Perm rs →
          splice? s rs' = some (weave s 0 front) ∧ splice s rs' = weave s 0 front := by
  constructor
  · intro d source p problems h placed
    refine ⟨properties_apart placed, fun q hq => ?_, fun _ _ _ _ _ => places_of_inlineAll⟩
    rw [← length_of_read h]
    exact properties_inText placed hq
  · intro s rs apart inText
    obtain ⟨front, perm, inOrder⟩ := exists_inOrder apart inText
    refine ⟨front, perm, inOrder.before, bytes_weave inOrder fun _ _ => Nat.zero_le _,
      fun rs' perm' => ?_⟩
    have hsplice := splice?_eq_weave (perm.trans perm'.symm) inOrder
    exact ⟨hsplice, splice_of_splice? hsplice⟩

namespace Nested

def path : Path := .ofString "/a.ts"

/-- A component in a method of another one, and one in the decorator of a third. -/
def source : List Char :=
  ("@Component(\x7b templateUrl: './é' \x7d) class A \x7b m() \x7b @Component(\x7b styles: ['b'] \x7d) class B \x7b\x7d \x7d \x7d\n"
    ++ "@Component(\x7b styles: 'c', x: @Component(\x7b styleUrl: './d' \x7d) class \x7b\x7d \x7d) class D \x7b\x7d\n").toList

def program : Program := (read (.ofPath path) source).program

def files : FileSystem :=
  ⟨"/", [(["é".toList], .file (some "t".toList)), (["d".toList], .file (some "d".toList))]⟩

def inlining : Result Inlined :=
  Build.result (inlineAll String.ofList ⟨none, .unchanged⟩ files path (properties program))

/-- Replacements of the properties, from the back to the front. -/
def replacements : List Replacement :=
  ((properties program).map fun q => ⟨q.span, "styles: []".toList⟩).reverse

theorem outcome : (read (.ofPath path) source).isGaveUp = false ∧ program.Nested ∧
    (properties program).map MetadataProperty.values =
      [["./é".toList], ["b".toList], ["c".toList], ["./d".toList]] ∧
    inlining.toOption.isSome = true := by
  decide +kernel

theorem exists_inlined : ∃ inlined, inlining = .ok inlined := by
  obtain ⟨-, -, -, h⟩ := outcome
  obtain ⟨inlined, hinlined⟩ := Option.isSome_iff_exists.mp h
  exact ⟨inlined, toOption_eq_some.mp hinlined⟩

end Nested

theorem splice_of_apart_places_nested : ∃ problems inlined,
    read (.ofPath Nested.path) Nested.source = .tree Nested.program problems ∧
    (properties Nested.program).length = 4 ∧
    ((properties Nested.program).map MetadataProperty.span).Pairwise Span.Apart ∧
    Nested.inlining = .ok inlined ∧
    (inlined.replacements.map Replacement.span).Sublist
      ((properties Nested.program).map MetadataProperty.span) ∧
    ∃ front : List Replacement, front.Perm Nested.replacements ∧
      (front.map Replacement.span).Pairwise Span.Before ∧
      splice? Nested.source Nested.replacements = some (weave Nested.source 0 front) := by
  obtain ⟨reads, nested, values, -⟩ := Nested.outcome
  obtain ⟨problems, hread⟩ := Reading.eq_tree reads
  obtain ⟨inlined, hinlined⟩ := Nested.exists_inlined
  obtain ⟨ofProgram, ofReplacements⟩ := splice_of_apart_places
  obtain ⟨apart, inText, touched⟩ := ofProgram hread (Program.wellPlaced_of_nested nested)
  have hspans : Nested.replacements.map Replacement.span =
      ((properties Nested.program).map MetadataProperty.span).reverse := by
    rw [Nested.replacements, List.map_reverse, List.map_map]
    rfl
  have places : (Nested.replacements.map Replacement.span).Pairwise Span.Apart := by
    rw [hspans, List.pairwise_reverse]
    exact apart.imp Or.symm
  obtain ⟨front, perm, before, -, splices⟩ :=
    ofReplacements Nested.source Nested.replacements places fun r hr => by
      obtain ⟨q, hq, rfl⟩ := List.mem_map.mp (List.mem_reverse.mp hr)
      exact inText q hq
  have four := congrArg List.length values
  rw [List.length_map] at four
  exact ⟨problems, inlined, hread, four, apart, hinlined, touched _ _ _ _ inlined hinlined, front,
    perm, before, (splices Nested.replacements (.refl _)).1⟩

end Resource

end LiveLoader
