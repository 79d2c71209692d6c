import LiveLoader.Outline

/-!
# What decides a classification

The search through an outline meets every node, whatever is nested in what. So its answer depends
only on whether a node starts the application, and else on whether one declares a building block.
-/

namespace LiveLoader

namespace OutlineNode

theorem nodesOf_eq_flatMap (ns : List OutlineNode) : nodesOf ns = ns.flatMap nodes := by
  induction ns with
  | nil => rfl
  | cons n ns ih => rw [nodesOf, List.flatMap_cons, ih]

theorem nodes_eq (n : OutlineNode) : nodes n = n :: nodesOf n.children := by
  cases n with
  | call callee children => rfl
  | classDef declaration decorators children => rfl

@[simp] theorem nodesOf_append (ns ms : List OutlineNode) :
    nodesOf (ns ++ ms) = nodesOf ns ++ nodesOf ms := by
  simp only [nodesOf_eq_flatMap, List.flatMap_append]

/-- The children of a node that is taken up take its place, so one node fewer is left. -/
theorem nodesOf_cons (n : OutlineNode) (work : List OutlineNode) :
    nodesOf (n :: work) = n :: nodesOf (n.children ++ work) := by
  rw [nodesOf, nodes_eq, nodesOf_append, List.cons_append]

end OutlineNode

namespace Outline

open OutlineNode

/-- What is to be answered when these nodes are left, and a building block was found or not. -/
def verdict (left : List OutlineNode) (found : Bool) : Classification :=
  if left.any startsApplication then .entryBootstrap
  else if found || left.any declaresBlock then .frameworkDecorated
  else .plainModule

theorem verdict_cons (n : OutlineNode) (left : List OutlineNode) (found : Bool) :
    verdict (n :: left) found =
      if n.startsApplication then .entryBootstrap else verdict left (found || n.declaresBlock) := by
  unfold verdict
  cases hn : n.startsApplication with
  | true => simp [hn]
  | false => simp [hn, Bool.or_assoc]

/-- With as much fuel as there are nodes, the search takes up all nodes of the work list. -/
theorem search_eq_verdict (fuel : Nat) (work : List OutlineNode) (found : Bool)
    (enough : (nodesOf work).length ≤ fuel) :
    search fuel work found = verdict (nodesOf work) found := by
  induction fuel generalizing work found with
  | zero =>
    have hnone : nodesOf work = [] := List.length_eq_zero_iff.mp (Nat.le_zero.mp enough)
    cases work with
    | nil => simp [search, verdict, nodesOf]
    | cons n work => simp [nodesOf, nodes_eq] at hnone
  | succ fuel ih =>
    cases work with
    | nil => simp [search, verdict, nodesOf]
    | cons n work =>
      rw [nodesOf_cons] at enough ⊢
      rw [search, ih _ _ (Nat.le_of_succ_le_succ enough), verdict_cons]

theorem classify_eq_verdict (o : Outline) : o.classify = verdict (nodesOf o) false :=
  search_eq_verdict _ o false (Nat.le_refl _)

theorem verdict_eq_entryBootstrap {left : List OutlineNode} {found : Bool} :
    verdict left found = .entryBootstrap ↔ ∃ n ∈ left, n.startsApplication = true := by
  rw [← List.any_eq_true, verdict]
  split
  case isTrue h => simp [h]
  case isFalse h => split <;> simp [h]

theorem verdict_eq_frameworkDecorated {left : List OutlineNode} :
    verdict left false = .frameworkDecorated ↔
      (¬ ∃ n ∈ left, n.startsApplication = true) ∧ ∃ n ∈ left, n.declaresBlock = true := by
  rw [← List.any_eq_true, ← List.any_eq_true, verdict]
  split
  case isTrue h => simp [h]
  case isFalse h => split <;> simp_all

theorem verdict_eq_plainModule {left : List OutlineNode} :
    verdict left false = .plainModule ↔
      (¬ ∃ n ∈ left, n.startsApplication = true) ∧ ¬ ∃ n ∈ left, n.declaresBlock = true := by
  rw [← List.any_eq_true, ← List.any_eq_true, verdict]
  split
  case isTrue h => simp [h]
  case isFalse h => split <;> simp_all

end Outline

end LiveLoader
