import LiveLoader.Syntax.Node

/-!
# Induction over syntax trees

What holds of a node if it holds of its children holds of all nodes. The nodes of a tree are the root
and the nodes of its children.
-/

namespace LiveLoader.Syntax.Node

/-- Proves a property of all nodes from the children up. -/
@[elab_as_elim, induction_eliminator]
theorem induction {P : Node → Prop}
    (mk : ∀ form span children, (∀ n ∈ children, P n) → P (mk form span children)) (n : Node) :
    P n :=
  @Node.rec P (fun ns => ∀ n ∈ ns, P n)
    (fun form span children ih => mk form span children ih)
    (fun _ h => absurd h List.not_mem_nil)
    (fun _ _ hn hns m hm => (List.mem_cons.mp hm).elim (fun h => h ▸ hn) (hns m)) n

theorem nodesOf_eq_flatMap (ns : List Node) : nodesOf ns = ns.flatMap nodes := by
  induction ns with
  | nil => rfl
  | cons n ns ih => rw [nodesOf, List.flatMap_cons, ih]

@[simp] theorem nodes_mk (form : Form) (span : Span) (children : List Node) :
    nodes (mk form span children) = mk form span children :: children.flatMap nodes := by
  rw [nodes, nodesOf_eq_flatMap]

theorem self_mem_nodes (n : Node) : n ∈ nodes n := by
  cases n with
  | mk form span children => simp

/-- The nodes of a child are nodes of the tree. -/
theorem mem_nodes_of_child {form : Form} {span : Span} {children : List Node} {n m : Node}
    (hn : n ∈ children) (hm : m ∈ nodes n) : m ∈ nodes (mk form span children) := by
  rw [nodes_mk]
  exact List.mem_cons_of_mem _ (List.mem_flatMap.mpr ⟨n, hn, hm⟩)

theorem mem_nodes_of_mem_children {n m k : Node} (hm : m ∈ n.children) (hk : k ∈ m.nodes) :
    k ∈ n.nodes := by
  cases n with
  | mk form span children => exact mem_nodes_of_child hm hk

theorem child_mem_nodes {n m : Node} (hm : m ∈ n.children) : m ∈ n.nodes :=
  mem_nodes_of_mem_children hm m.self_mem_nodes

theorem mem_nodes_trans {n m k : Node} (hm : m ∈ nodes n) (hk : k ∈ nodes m) : k ∈ nodes n := by
  induction n with
  | mk form span children ih =>
    rw [nodes_mk, List.mem_cons] at hm
    rcases hm with rfl | hm
    · exact hk
    · obtain ⟨c, hc, hm⟩ := List.mem_flatMap.mp hm
      exact mem_nodes_of_child hc (ih c hc hm)

theorem mem_nodesOf {ns : List Node} {m : Node} : m ∈ nodesOf ns ↔ ∃ n ∈ ns, m ∈ nodes n := by
  rw [nodesOf_eq_flatMap, List.mem_flatMap]

theorem mem_nodesOf_trans {ns : List Node} {m k : Node} (hm : m ∈ nodesOf ns) (hk : k ∈ nodes m) :
    k ∈ nodesOf ns := by
  obtain ⟨n, hn, hm⟩ := mem_nodesOf.mp hm
  exact mem_nodesOf.mpr ⟨n, hn, mem_nodes_trans hm hk⟩

end LiveLoader.Syntax.Node
