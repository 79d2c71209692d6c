import LiveLoader.Proofs.Syntax.Siblings
import LiveLoader.Resource.Metadata

/-!
# Where the properties of components stand

A property that is collected holds literals, so no class stands in it. Hence no two collected
properties overlap, whatever classes stand inside the decorators and members of others.
-/

namespace LiveLoader.Resource

open Syntax

/-- No class stands in a tree that describes a component. -/
def Classless (n : Node) : Prop := ∀ m ∈ n.nodes, classProperties m = []

theorem classless_mk {form : Form} {span : Span} {children : List Node}
    (self : classProperties (.mk form span children) = []) (parts : ∀ c ∈ children, Classless c) :
    Classless (.mk form span children) := by
  intro m hm
  rw [Node.nodes_mk, List.mem_cons] at hm
  rcases hm with rfl | hm
  · exact self
  · obtain ⟨c, hc, hm⟩ := List.mem_flatMap.mp hm
    exact parts c hc m hm

theorem classless_leaf (form : Form) (span : Span) : Classless (.mk form span []) := by
  refine classless_mk ?_ nofun
  unfold classProperties
  split
  case h_1 heq => cases heq
  case h_2 => rfl

theorem classless_of_literalText? {n : Node} {text : List Char} (h : literalText? n = some text) :
    Classless n := by
  unfold literalText? at h
  split at h
  case h_1 => exact classless_leaf _ _
  case h_2 => exact classless_leaf _ _
  case h_3 => cases h

theorem exists_literalText? {items : List Node} {texts : List (List Char)}
    (h : items.mapM literalText? = some texts) {item : Node} (hitem : item ∈ items) :
    ∃ text, literalText? item = some text := by
  induction items generalizing texts with
  | nil => cases hitem
  | cons first items ih =>
    simp only [List.mapM_cons, Option.bind_eq_bind, Option.bind_eq_some_iff] at h
    obtain ⟨text, htext, rest, hrest, -⟩ := h
    rcases List.mem_cons.mp hitem with rfl | hitem
    · exact ⟨text, htext⟩
    · exact ih hrest hitem

theorem classless_of_literalTexts? {n : Node} {texts : List (List Char)}
    (h : literalTexts? n = some texts) : Classless n := by
  unfold literalTexts? at h
  split at h
  case h_1 span items =>
    refine classless_mk rfl fun item hitem => ?_
    obtain ⟨text, htext⟩ := exists_literalText? h hitem
    exact classless_of_literalText? htext
  case h_2 =>
    obtain ⟨text, htext, -⟩ := Option.map_eq_some_iff.mp h
    exact classless_of_literalText? htext

theorem classless_of_keyText? {n : Node} {name : String} (h : keyText? n = some name) :
    Classless n := by
  unfold keyText? at h
  split at h
  case h_1 => exact classless_leaf _ _
  case h_2 => exact classless_leaf _ _
  case h_3 =>
    refine classless_mk rfl fun c hc => ?_
    obtain rfl := List.mem_singleton.mp hc
    exact classless_leaf _ _
  case h_4 => cases h

/-- An entry that gives a property stands where the property does, and holds no class. -/
theorem of_ofEntry?_eq_some {e : Node} {q : MetadataProperty}
    (h : MetadataProperty.ofEntry? e = some q) :
    e.isPlaced = true ∧ e.span = q.span ∧ Classless e := by
  unfold MetadataProperty.ofEntry? at h
  split at h
  case h_1 kind span key value =>
    simp only [Option.bind_eq_bind, Option.bind_eq_some_iff] at h
    obtain ⟨kind, ⟨name, hname, -⟩, texts, htexts, h⟩ := h
    split at h
    case h_1 => cases h
    case h_2 =>
      cases h
      refine ⟨rfl, rfl, classless_mk rfl ?_⟩
      simp only [List.forall_mem_cons, List.not_mem_nil, false_imp_iff, implies_true, and_true]
      exact ⟨classless_of_keyText? hname, classless_of_literalTexts? htexts⟩
  case h_2 => cases h

/-- The key of such an entry is a name or a string. -/
theorem exists_key_of_ofEntry? {e : Node} {q : MetadataProperty}
    (h : MetadataProperty.ofEntry? e = some q) :
    ∃ key ∈ e.children, ∃ name, keyText? key = some name := by
  unfold MetadataProperty.ofEntry? at h
  split at h
  case h_1 kind span key value =>
    simp only [Option.bind_eq_bind, Option.bind_eq_some_iff] at h
    obtain ⟨kind, ⟨name, hname, -⟩, -⟩ := h
    exact ⟨key, List.mem_cons_self, name, hname⟩
  case h_2 => cases h

/-- The entries of a decorator stand in an object that it is called with. -/
theorem mem_metadataEntries {d e : Node} (h : e ∈ metadataEntries d) :
    ∃ span optional pure callSpan args objectSpan entries,
      d = .mk .decorator span [.mk (.call optional pure) callSpan args] ∧
      .mk .object objectSpan entries ∈ args ∧ metadataEntries d = entries := by
  unfold metadataEntries at h
  split at h
  case h_1 span call =>
    split at h
    case h_1 optional pure callee objectSpan entries more hform hparts =>
      split at h
      case isTrue hname =>
        cases call with
        | mk form callSpan args =>
          obtain rfl : form = .call optional pure := hform
          have hobject : Node.mk .object objectSpan entries ∈
              Node.parts (.mk (.call optional pure) callSpan args) := by
            rw [hparts]
            exact List.mem_cons_of_mem _ List.mem_cons_self
          refine ⟨span, optional, pure, callSpan, args, objectSpan, entries, rfl,
            (List.mem_filter.mp hobject).1, ?_⟩
          simp only [metadataEntries, Node.form_mk, hparts, if_pos hname]
      case isFalse => cases h
    case h_2 => cases h
  case h_2 => cases h

theorem mem_nodes_of_mem_metadataEntries {d e : Node} (h : e ∈ metadataEntries d) :
    e ∈ d.nodes := by
  obtain ⟨span, optional, pure, callSpan, args, objectSpan, entries, rfl, hobject, heq⟩ :=
    mem_metadataEntries h
  rw [heq] at h
  exact Node.mem_nodes_of_child List.mem_cons_self
    (Node.mem_nodes_of_child hobject (Node.child_mem_nodes h))

/-- A property of a class is that of an entry of one of its decorators. -/
theorem mem_classProperties {n : Node} {q : MetadataProperty} (h : q ∈ classProperties n) :
    ∃ info span decorators rest, n = .mk (.classDef info) span (decorators :: rest) ∧
      ∃ d ∈ decorators.children, ∃ e ∈ metadataEntries d, MetadataProperty.ofEntry? e = some q := by
  unfold classProperties at h
  split at h
  case h_1 info span decorators rest =>
    obtain ⟨d, hd, h⟩ := List.mem_flatMap.mp h
    obtain ⟨e, he, h⟩ := List.mem_filterMap.mp h
    exact ⟨info, span, decorators, rest, rfl, d, hd, e, he, h⟩
  case h_2 => cases h

theorem exists_entry_of_mem_classProperties {n : Node} {q : MetadataProperty}
    (h : q ∈ classProperties n) :
    ∃ e ∈ n.nodes, MetadataProperty.ofEntry? e = some q := by
  obtain ⟨info, span, decorators, rest, rfl, d, hd, e, he, h⟩ := mem_classProperties h
  have hed := Node.mem_nodes_of_mem_children hd (mem_nodes_of_mem_metadataEntries he)
  exact ⟨e, Node.mem_nodes_of_child List.mem_cons_self hed, h⟩

/-- The places of the properties of the classes in a tree. -/
def held (n : Node) : List Span :=
  n.nodes.flatMap fun m => (classProperties m).map MetadataProperty.span

theorem held_mk (form : Form) (span : Span) (children : List Node) :
    held (.mk form span children) =
      (classProperties (.mk form span children)).map MetadataProperty.span ++
        children.flatMap held := by
  simp only [held, Node.nodes_mk, List.flatMap_cons, List.flatMap_assoc]
  rfl

theorem exists_class_of_mem_held {n : Node} {s : Span} (h : s ∈ held n) :
    ∃ m ∈ n.nodes, ∃ q ∈ classProperties m, q.span = s := by
  obtain ⟨m, hm, hs⟩ := List.mem_flatMap.mp h
  exact ⟨m, hm, List.mem_map.mp hs⟩

theorem exists_entry_of_mem_held {n : Node} {s : Span} (h : s ∈ held n) :
    ∃ e ∈ n.nodes, e.isPlaced = true ∧ e.span = s := by
  obtain ⟨m, hm, q, hq, rfl⟩ := exists_class_of_mem_held h
  obtain ⟨e, he, hq⟩ := exists_entry_of_mem_classProperties hq
  obtain ⟨placed, hspan, -⟩ := of_ofEntry?_eq_some hq
  exact ⟨e, Node.mem_nodes_trans hm he, placed, hspan⟩

/-- The properties of one object are apart. -/
theorem entries_apart {d : Node} (parts : d.PartsApart) :
    (((metadataEntries d).filterMap MetadataProperty.ofEntry?).map
      MetadataProperty.span).Pairwise Span.Apart := by
  have siblings : Node.SiblingsApart (metadataEntries d) := by
    by_cases hnone : metadataEntries d = []
    · rw [hnone]
      exact List.Pairwise.nil
    · obtain ⟨e, he⟩ := List.exists_mem_of_ne_nil _ hnone
      obtain ⟨span, optional, pure, callSpan, args, objectSpan, entries, rfl, hobject, heq⟩ :=
        mem_metadataEntries he
      rw [heq]
      refine parts (.mk .object objectSpan entries) (Node.mem_nodes_of_child List.mem_cons_self ?_)
      exact Node.child_mem_nodes hobject
  rw [List.pairwise_map, List.pairwise_filterMap]
  refine siblings.imp ?_
  intro e e' apart q hq q' hq'
  have h := of_ofEntry?_eq_some hq
  have h' := of_ofEntry?_eq_some hq'
  rw [← h.2.1, ← h'.2.1]
  exact apart e (Node.self_mem_nodes e) e' (Node.self_mem_nodes e') h.1 h'.1

/-- The properties of one class are apart. -/
theorem classProperties_apart {n : Node} (parts : n.PartsApart) :
    ((classProperties n).map MetadataProperty.span).Pairwise Span.Apart := by
  unfold classProperties
  split
  case h_1 info span decorators rest =>
    have hdecorators : decorators ∈ (Node.mk (.classDef info) span (decorators :: rest)).nodes :=
      Node.child_mem_nodes List.mem_cons_self
    rw [List.map_flatMap]
    refine Node.flatMap_apart ?_ (parts decorators hdecorators) ?_
    · intro d s hs
      obtain ⟨q, hq, rfl⟩ := List.mem_map.mp hs
      obtain ⟨e, he, h⟩ := List.mem_filterMap.mp hq
      exact ⟨e, mem_nodes_of_mem_metadataEntries he, (of_ofEntry?_eq_some h).1,
        (of_ofEntry?_eq_some h).2.1⟩
    · intro d hd
      exact entries_apart (parts.of_mem (Node.mem_nodes_trans hdecorators
        (Node.child_mem_nodes hd)))
  case h_2 => exact List.Pairwise.nil

/-- What is not the root of a tree stands in one of the parts. -/
theorem exists_part_of_mem_nodes {form : Form} {span : Span} {children : List Node} {m : Node}
    (hm : m ∈ (Node.mk form span children).nodes) (hne : m ≠ .mk form span children) :
    ∃ c ∈ children, m ∈ c.nodes := by
  rw [Node.nodes_mk, List.mem_cons] at hm
  exact List.mem_flatMap.mp (hm.resolve_left hne)

/-- The properties of a class below a decorator are apart from each entry that holds no class. -/
theorem entry_apart {d e m : Node} (parts : d.PartsApart) (he : e ∈ metadataEntries d)
    (placed : e.isPlaced = true) (classless : Classless e) (hm : m ∈ d.nodes)
    {q : MetadataProperty} (hq : q ∈ classProperties m) : e.span.Apart q.span := by
  obtain ⟨e', he', hentry⟩ := exists_entry_of_mem_classProperties hq
  obtain ⟨placed', hspan, -⟩ := of_ofEntry?_eq_some hentry
  obtain ⟨info, classSpan, decorators, rest, hclass, -⟩ := mem_classProperties hq
  obtain ⟨span, optional, pure, callSpan, args, objectSpan, entries, rfl, hobject, heq⟩ :=
    mem_metadataEntries he
  rw [heq] at he
  rw [← hspan]
  -- the class is none of the nodes on the way down to the entry, so it stands in a part of each
  obtain ⟨call, hcall, hm⟩ := exists_part_of_mem_nodes hm (by rw [hclass]; simp)
  obtain rfl := List.mem_singleton.mp hcall
  have parts := parts.of_mem (Node.child_mem_nodes List.mem_cons_self)
  obtain ⟨c, hc, hm⟩ := exists_part_of_mem_nodes hm (by rw [hclass]; simp)
  rcases Node.eq_or_apart parts.siblings hobject hc
    (Node.child_mem_nodes he) (Node.mem_nodes_trans hm he') placed placed'
    with rfl | apart
  · obtain ⟨e₂, he₂, hm⟩ := exists_part_of_mem_nodes hm (by rw [hclass]; simp)
    have parts := parts.of_mem (Node.child_mem_nodes hobject)
    rcases Node.eq_or_apart parts.siblings he he₂ (Node.self_mem_nodes e)
      (Node.mem_nodes_trans hm he') placed placed' with rfl | apart
    · rw [classless m hm] at hq
      cases hq
    · exact apart
  · exact apart

/-- The properties of a class below the decorators are apart from each entry that holds no class. -/
theorem entry_apart_of_decorators {decorators d e m : Node} (parts : decorators.PartsApart)
    (hd : d ∈ decorators.children) (he : e ∈ metadataEntries d) (placed : e.isPlaced = true)
    (classless : Classless e) (hm : m ∈ decorators.nodes) {q : MetadataProperty}
    (hq : q ∈ classProperties m) : e.span.Apart q.span := by
  have siblings := parts.siblings
  have hed := mem_nodes_of_mem_metadataEntries he
  obtain ⟨e', he', hentry⟩ := exists_entry_of_mem_classProperties hq
  obtain ⟨placed', hspan, -⟩ := of_ofEntry?_eq_some hentry
  cases decorators with
  | mk form span children =>
    by_cases hroot : m = .mk form span children
    · -- the decorators of a class that is taken for a list of decorators stand in its first part
      obtain ⟨info, span, decorators, rest, heq, d', hd', e', he', h⟩ := mem_classProperties hq
      cases hroot.symm.trans heq
      have hentry := of_ofEntry?_eq_some h
      have hed' := Node.mem_nodes_of_mem_children hd' (mem_nodes_of_mem_metadataEntries he')
      rcases Node.eq_or_apart siblings hd List.mem_cons_self hed hed' placed hentry.1
        with rfl | apart
      · obtain ⟨_, _, _, _, _, _, _, rfl, -⟩ := mem_metadataEntries he
        obtain rfl := List.mem_singleton.mp hd'
        cases he'
      · rw [← hentry.2.1]
        exact apart
    · obtain ⟨d', hd', hm⟩ := exists_part_of_mem_nodes hm hroot
      rcases Node.eq_or_apart siblings hd hd' hed (Node.mem_nodes_trans hm he') placed placed'
        with rfl | apart
      · exact entry_apart (parts.of_mem (Node.child_mem_nodes hd)) he
          placed classless hm hq
      · rw [← hspan]
        exact apart

/-- The properties of a class are apart from those of all classes inside it. -/
theorem class_apart {form : Form} {span : Span} {children : List Node}
    (parts : (Node.mk form span children).PartsApart) {q q' : MetadataProperty}
    (hq : q ∈ classProperties (.mk form span children)) {c m : Node}
    (hc : c ∈ children) (hm : m ∈ c.nodes) (hq' : q' ∈ classProperties m) :
    q.span.Apart q'.span := by
  obtain ⟨info, span, decorators, rest, heq, d, hd, e, he, h⟩ := mem_classProperties hq
  cases heq
  obtain ⟨placed, hspan, classless⟩ := of_ofEntry?_eq_some h
  obtain ⟨e', he', hentry⟩ := exists_entry_of_mem_classProperties hq'
  obtain ⟨placed', hspan', -⟩ := of_ofEntry?_eq_some hentry
  have hdecorators : decorators ∈ (Node.mk (.classDef info) span (decorators :: rest)).nodes :=
    Node.child_mem_nodes List.mem_cons_self
  have hed := Node.mem_nodes_of_mem_children hd (mem_nodes_of_mem_metadataEntries he)
  rw [← hspan]
  rcases Node.eq_or_apart parts.siblings List.mem_cons_self hc hed
    (Node.mem_nodes_trans hm he') placed placed' with rfl | apart
  · exact entry_apart_of_decorators (parts.of_mem hdecorators) hd he placed
      classless hm hq'
  · rw [← hspan']
    exact apart

/-- The properties of all classes in a tree are apart. -/
theorem held_apart {n : Node} (parts : n.PartsApart) :
    (held n).Pairwise Span.Apart := by
  induction n with
  | mk form span children ih =>
    have hchild : ∀ c ∈ children, c ∈ (Node.mk form span children).nodes := fun c hc =>
      Node.child_mem_nodes hc
    rw [held_mk, List.pairwise_append]
    refine ⟨classProperties_apart parts, ?_, ?_⟩
    · exact Node.flatMap_apart (fun n s hs => exists_entry_of_mem_held hs)
        parts.siblings fun c hc => ih c hc (parts.of_mem (hchild c hc))
    · intro s hs t ht
      obtain ⟨q, hq, rfl⟩ := List.mem_map.mp hs
      obtain ⟨c, hc, ht⟩ := List.mem_flatMap.mp ht
      obtain ⟨m, hm, q', hq', rfl⟩ := exists_class_of_mem_held ht
      exact class_apart parts hq hc hm hq'

section

variable {p : Program}

/-- The properties that are collected from a program are apart. -/
theorem properties_apart (placed : p.WellPlaced) :
    ((properties p).map MetadataProperty.span).Pairwise Span.Apart := by
  have heq : (properties p).map MetadataProperty.span = p.body.flatMap held := by
    simp only [properties, Node.nodesOf_eq_flatMap, List.map_flatMap, List.flatMap_assoc]
    rfl
  rw [heq]
  exact Node.flatMap_apart (fun n s hs => exists_entry_of_mem_held hs) placed.roots fun n hn =>
    held_apart (placed.partsApart hn)

/-- A property has at least the text of its key. -/
theorem nonempty_of_entry (placed : p.WellPlaced) {e : Node} (he : e ∈ Node.nodesOf p.body)
    {q : MetadataProperty} (h : MetadataProperty.ofEntry? e = some q) :
    e.span.start < e.span.stop := by
  obtain ⟨key, hkey, name, hname⟩ := exists_key_of_ofEntry? h
  have placed' := (of_ofEntry?_eq_some h).1
  unfold keyText? at hname
  split at hname
  case h_1 => exact placed.nonempty_of_word he placed' hkey rfl
  case h_2 => exact placed.nonempty_of_word he placed' hkey rfl
  case h_3 =>
    have hmem := Node.mem_nodesOf_trans he (Node.child_mem_nodes hkey)
    refine placed.nonempty_of_part he placed' hkey (.inr rfl) ?_
    exact placed.nonempty_of_word hmem rfl List.mem_cons_self rfl
  case h_4 => cases hname

theorem properties_inText (placed : p.WellPlaced) {q : MetadataProperty} (hq : q ∈ properties p) :
    q.span.start < q.span.stop ∧ q.span.stop ≤ p.length := by
  obtain ⟨m, hm, hq⟩ := List.mem_flatMap.mp hq
  obtain ⟨e, he, hq⟩ := exists_entry_of_mem_classProperties hq
  have hmem := Node.mem_nodesOf_trans hm he
  obtain ⟨placed', hspan, -⟩ := of_ofEntry?_eq_some hq
  rw [← hspan]
  exact ⟨nonempty_of_entry placed hmem hq, placed.inText e hmem placed'⟩

theorem properties_of_nested (nested : p.Nested) :
    ((properties p).map MetadataProperty.span).Pairwise Span.Apart ∧
    ∀ q ∈ properties p, q.span.start < q.span.stop ∧ q.span.stop ≤ p.length :=
  have placed := Program.wellPlaced_of_nested nested
  ⟨properties_apart placed, fun _ h => properties_inText placed h⟩

end

end LiveLoader.Resource
