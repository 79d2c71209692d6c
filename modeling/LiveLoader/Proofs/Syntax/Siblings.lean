import Mathlib.Data.List.Pairwise
import LiveLoader.Proofs.Syntax.Node
import LiveLoader.Proofs.Syntax.Span
import LiveLoader.Syntax.Parser

/-!
# Places of siblings

In a tree that was read, what stands in one part of a node overlaps nothing that stands in another
part. This is so whenever the parts of each node stand inside it, one beside the other; it also
covers the decorators of an exported class, which stand in front of the class that they are parts of.
Only words are taken to have characters: what a word is part of has some as well.
-/

namespace LiveLoader.Syntax

namespace Node

/-- A name or a literal, or a member, which ends in its name. -/
def isWord (n : Node) : Bool :=
  match n.form with
  | .identifier _ | .privateName _ | .number _ | .bigInt _ | .string _ | .boolean _ | .null | .this
  | .super | .regex .. | .template _ | .member .. | .privateMember .. => true
  | _ => false

/-- A list has no place of its own, and a node without parts, such as a name that is written once and
stands for a key and its value, may share its place with another one. -/
def isPlaced : Node → Bool
  | mk .list _ _ | mk _ _ [] => false
  | _ => true

/-- What stands in one of the trees overlaps nothing that stands in another one. -/
def SiblingsApart (ns : List Node) : Prop :=
  ns.Pairwise fun n m => ∀ a ∈ n.nodes, ∀ b ∈ m.nodes,
    a.isPlaced = true → b.isPlaced = true → a.span.Apart b.span

instance (ns : List Node) : Decidable (SiblingsApart ns) :=
  inferInstanceAs (Decidable (List.Pairwise _ ns))

/-- What is found in siblings is apart if it is so in each of them. -/
theorem flatMap_apart {f : Node → List Span}
    (hf : ∀ n, ∀ s ∈ f n, ∃ m ∈ n.nodes, m.isPlaced = true ∧ m.span = s) {ns : List Node}
    (siblings : SiblingsApart ns) (each : ∀ n ∈ ns, (f n).Pairwise Span.Apart) :
    (ns.flatMap f).Pairwise Span.Apart := by
  rw [List.pairwise_flatMap]
  refine ⟨each, siblings.imp ?_⟩
  intro n m apart s hs t ht
  obtain ⟨a, ha, placed, rfl⟩ := hf n s hs
  obtain ⟨b, hb, placed', rfl⟩ := hf m t ht
  exact apart a ha b hb placed placed'

/-- What stands in two siblings stands in the same one, or apart. -/
theorem eq_or_apart {ns : List Node} (siblings : SiblingsApart ns) {n m a b : Node} (hn : n ∈ ns)
    (hm : m ∈ ns) (ha : a ∈ n.nodes) (hb : b ∈ m.nodes) (placed : a.isPlaced = true)
    (placed' : b.isPlaced = true) : n = m ∨ a.span.Apart b.span := by
  have hsymm : Std.Symm fun n m : Node => ∀ a ∈ n.nodes, ∀ b ∈ m.nodes,
      a.isPlaced = true → b.isPlaced = true → a.span.Apart b.span :=
    ⟨fun n m h a ha b hb placed placed' => (h b hb a ha placed' placed).symm⟩
  by_cases heq : n = m
  · exact .inl heq
  · exact .inr (siblings.forall hn hm heq a ha b hb placed placed')

/-- In a tree all siblings are apart. -/
def PartsApart (n : Node) : Prop := ∀ m ∈ n.nodes, SiblingsApart m.children

theorem PartsApart.siblings {n : Node} (h : n.PartsApart) : SiblingsApart n.children :=
  h n n.self_mem_nodes

theorem PartsApart.of_mem {n m : Node} (h : n.PartsApart) (hm : m ∈ n.nodes) : m.PartsApart :=
  fun k hk => h k (mem_nodes_trans hm hk)

end Node

/-- Words take up some of the text, the parts of a node stand inside it, and siblings are apart. -/
structure Program.WellPlaced (p : Program) : Prop where
  words : ∀ n ∈ Node.nodesOf p.body, n.isWord = true → n.span.start < n.span.stop
  inText : ∀ n ∈ Node.nodesOf p.body, n.isPlaced = true → n.span.stop ≤ p.length
  inside : ∀ n ∈ Node.nodesOf p.body, n.isPlaced = true → ∀ c ∈ n.children,
    c.isWord = true ∨ c.isPlaced = true → c.span.Within n.span
  roots : Node.SiblingsApart p.body
  parts : ∀ n ∈ Node.nodesOf p.body, Node.SiblingsApart n.children

instance (p : Program) : Decidable p.WellPlaced :=
  decidable_of_iff (_ ∧ _ ∧ _ ∧ _ ∧ _)
    ⟨fun ⟨words, inText, inside, roots, parts⟩ => ⟨words, inText, inside, roots, parts⟩,
      fun h => ⟨h.words, h.inText, h.inside, h.roots, h.parts⟩⟩

namespace Program.WellPlaced

variable {p : Program}

/-- A node takes up some of the text if one of its parts does. -/
theorem nonempty_of_part (h : p.WellPlaced) {n c : Node} (hn : n ∈ Node.nodesOf p.body)
    (placed : n.isPlaced = true) (hc : c ∈ n.children) (stands : c.isWord = true ∨ c.isPlaced = true)
    (nonempty : c.span.start < c.span.stop) : n.span.start < n.span.stop := by
  have within := h.inside n hn placed c hc stands
  exact Nat.lt_of_le_of_lt within.1 (Nat.lt_of_lt_of_le nonempty within.2)

theorem nonempty_of_word (h : p.WellPlaced) {n w : Node} (hn : n ∈ Node.nodesOf p.body)
    (placed : n.isPlaced = true) (hw : w ∈ n.children) (word : w.isWord = true) :
    n.span.start < n.span.stop :=
  h.nonempty_of_part hn placed hw (.inl word)
    (h.words w (Node.mem_nodesOf_trans hn (Node.child_mem_nodes hw)) word)

theorem partsApart (h : p.WellPlaced) {n : Node} (hn : n ∈ p.body) : n.PartsApart :=
  fun m hm => h.parts m (Node.mem_nodesOf.mpr ⟨n, hn, hm⟩)

end Program.WellPlaced

theorem Reading.eq_tree {r : Reading} (h : r.isGaveUp = false) :
    ∃ problems, r = .tree r.program problems := by
  cases r with
  | gaveUp _ => cases h
  | tree p problems => exact ⟨problems, rfl⟩

theorem length_of_read {d : Dialect} {source : List Char} {p : Program} {problems : Nat}
    (h : read d source = .tree p problems) : p.length = source.length := by
  simp only [read, bind, Except.bind, pure, Except.pure] at h
  split at h
  case h_1 hread =>
    cases h
    split at hread
    · cases hread
    · split at hread
      · split at hread
        · cases hread
        · cases hread
          rfl
      · cases hread
        rfl
  case h_2 => cases h

namespace Node

/-- The places that a node takes up beside its siblings; a list takes up those of its members. -/
def places : Node → List Span :=
  fold fun n parts => if n.isPlaced then [n.span] else parts.flatten

theorem places_of_isPlaced {n : Node} (h : n.isPlaced = true) : n.places = [n.span] := by
  cases n with
  | mk form span children => rw [places, fold_mk, if_pos h]

theorem places_of_not_isPlaced {n : Node} (h : ¬ n.isPlaced = true) :
    n.places = n.children.flatMap places := by
  cases n with
  | mk form span children =>
    rw [places, fold_mk, if_neg h]
    exact (List.flatMap_def ..).symm

/-- The trees stand inside the given place, one beside the other. -/
structure PlacedIn (outer : Span) (ns : List Node) : Prop where
  words : ∀ n ∈ ns, n.isWord = true → n.span.Within outer
  inside : ∀ s ∈ ns.flatMap places, s.Within outer
  apart : (ns.flatMap places).Pairwise Span.Apart

instance (outer : Span) (ns : List Node) : Decidable (PlacedIn outer ns) :=
  decidable_of_iff (_ ∧ _ ∧ _)
    ⟨fun ⟨words, inside, apart⟩ => ⟨words, inside, apart⟩, fun h => ⟨h.words, h.inside, h.apart⟩⟩

/-- A tree all of whose parts stand inside it, one beside the other. -/
def Nested (n : Node) : Prop := ∀ m ∈ n.nodes, m.isPlaced = true → PlacedIn m.span m.children

instance (n : Node) : Decidable n.Nested :=
  inferInstanceAs (Decidable (∀ m ∈ n.nodes, m.isPlaced = true → PlacedIn m.span m.children))

theorem Nested.child {form : Form} {span : Span} {children : List Node} {n : Node}
    (h : Nested (mk form span children)) (hn : n ∈ children) : n.Nested :=
  fun m hm => h m (mem_nodes_of_child hn hm)

/-- What is nested stands inside one of the places that the tree takes up. -/
theorem Nested.exists_place {n : Node} (nested : n.Nested) {m : Node} (hm : m ∈ n.nodes)
    (placed : m.isPlaced = true) : ∃ t ∈ n.places, m.span.Within t := by
  induction n with
  | mk form span children ih =>
    rw [nodes_mk, List.mem_cons] at hm
    rcases hm with rfl | hm
    · rw [places_of_isPlaced placed]
      exact ⟨span, List.mem_singleton_self span, Span.Within.refl span⟩
    · obtain ⟨c, hc, hm⟩ := List.mem_flatMap.mp hm
      obtain ⟨t, ht, within⟩ := ih c hc (nested.child hc) hm
      have ht : t ∈ children.flatMap places := List.mem_flatMap.mpr ⟨c, hc, ht⟩
      by_cases outer : (mk form span children).isPlaced = true
      · rw [places_of_isPlaced outer]
        have := (nested _ (self_mem_nodes _) outer).inside t ht
        exact ⟨span, List.mem_singleton_self span, within.trans this⟩
      · rw [places_of_not_isPlaced outer]
        exact ⟨t, ht, within⟩

theorem siblingsApart_of_nested {ns : List Node} (nested : ∀ n ∈ ns, n.Nested)
    (apart : (ns.flatMap places).Pairwise Span.Apart) : SiblingsApart ns := by
  refine (List.pairwise_flatMap.mp apart).2.imp_of_mem ?_
  intro n m hn hm apart a ha b hb placed placed'
  obtain ⟨s, hs, withinS⟩ := (nested n hn).exists_place ha placed
  obtain ⟨t, ht, withinT⟩ := (nested m hm).exists_place hb placed'
  exact (apart s hs t ht).of_within withinS withinT

/-- At each node of a nested tree the places of the parts are apart, be it a list or not. -/
theorem Nested.parts {n : Node} (nested : n.Nested) (apart : n.places.Pairwise Span.Apart) :
    ∀ m ∈ n.nodes, (m.children.flatMap places).Pairwise Span.Apart := by
  induction n with
  | mk form span children ih =>
    have hself : (children.flatMap places).Pairwise Span.Apart := by
      by_cases placed : (mk form span children).isPlaced = true
      · exact (nested _ (self_mem_nodes _) placed).apart
      · rwa [places_of_not_isPlaced placed] at apart
    intro m hm
    rw [nodes_mk, List.mem_cons] at hm
    rcases hm with rfl | hm
    · exact hself
    · obtain ⟨c, hc, hm⟩ := List.mem_flatMap.mp hm
      exact ih c hc (nested.child hc) ((List.pairwise_flatMap.mp hself).1 c hc) m hm

theorem PlacedIn.part {outer : Span} {ns : List Node} (h : PlacedIn outer ns) {n : Node} (hn : n ∈ ns)
    (stands : n.isWord = true ∨ n.isPlaced = true) : n.span.Within outer := by
  rcases stands with word | placed
  · exact h.words n hn word
  · refine h.inside n.span (List.mem_flatMap.mpr ⟨n, hn, ?_⟩)
    rw [places_of_isPlaced placed]
    exact List.mem_singleton_self n.span

end Node

/-- Words take up some of the text, and the parts of each node stand inside it, one beside the
other. -/
structure Program.Nested (p : Program) : Prop where
  words : ∀ n ∈ Node.nodesOf p.body, n.isWord = true → n.span.start < n.span.stop
  body : Node.PlacedIn ⟨0, p.length⟩ p.body
  roots : ∀ n ∈ p.body, n.Nested

instance (p : Program) : Decidable p.Nested :=
  decidable_of_iff (_ ∧ _ ∧ _)
    ⟨fun ⟨words, body, roots⟩ => ⟨words, body, roots⟩, fun h => ⟨h.words, h.body, h.roots⟩⟩

theorem Program.wellPlaced_of_nested {p : Program} (h : p.Nested) : p.WellPlaced where
  words := h.words
  inText n hn placed := by
    obtain ⟨root, hroot, hn⟩ := Node.mem_nodesOf.mp hn
    obtain ⟨s, hs, within⟩ := (h.roots root hroot).exists_place hn placed
    exact (within.trans (h.body.inside s (List.mem_flatMap.mpr ⟨root, hroot, hs⟩))).2
  inside n hn placed c hc stands := by
    obtain ⟨root, hroot, hn⟩ := Node.mem_nodesOf.mp hn
    exact (h.roots root hroot n hn placed).part hc stands
  roots := Node.siblingsApart_of_nested h.roots h.body.apart
  parts n hn := by
    obtain ⟨root, hroot, hn⟩ := Node.mem_nodesOf.mp hn
    have nested := h.roots root hroot
    have apart := (List.pairwise_flatMap.mp h.body.apart).1 root hroot
    refine Node.siblingsApart_of_nested (fun c hc m hm => ?_) (nested.parts apart n hn)
    exact nested m (Node.mem_nodes_trans hn (Node.mem_nodes_of_mem_children hc hm))

end LiveLoader.Syntax
