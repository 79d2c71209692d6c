import Mathlib.Logic.Function.Iterate
import LiveLoader.Proofs.Outline

/-!
# What a classification depends on

The search through an outline ends, and its answer says what nodes there are and nothing of where they
stand. So the order of siblings does not matter, and more nodes can only raise the classification.
-/

namespace LiveLoader

open OutlineNode

/-- A search under way, with the nodes that it has still to take up, or its answer. -/
inductive Search where
  | looking (work : List OutlineNode) (found : Bool)
  | answered (c : Classification)

namespace Search

/-- One turn of the search; an answer stays. -/
def step : Search → Search
  | looking [] found => answered (if found then .frameworkDecorated else .plainModule)
  | looking (n :: work) found =>
    if n.startsApplication then answered .entryBootstrap
    else looking (n.children ++ work) (found || n.declaresBlock)
  | answered c => answered c

/-- What a search is to answer. -/
def due : Search → Classification
  | looking work found => Outline.verdict (nodesOf work) found
  | answered c => c

/-- How many more turns a search can take. -/
def turns : Search → Nat
  | looking work _ => (nodesOf work).length + 1
  | answered _ => 0

theorem due_step (s : Search) : s.step.due = s.due := by
  cases s with
  | answered c => rfl
  | looking work found =>
    cases work with
    | nil => cases found <;> rfl
    | cons n work =>
      rw [due, nodesOf_cons, Outline.verdict_cons, step]
      split
      · rfl
      · rfl

theorem turns_step_le {s : Search} {k : Nat} (h : s.turns ≤ k + 1) : s.step.turns ≤ k := by
  cases s with
  | answered c => exact Nat.zero_le k
  | looking work found =>
    cases work with
    | nil => exact Nat.zero_le k
    | cons n work =>
      rw [turns, nodesOf_cons, List.length_cons] at h
      rw [step]
      split
      · exact Nat.zero_le k
      · exact Nat.le_of_succ_le_succ h

/-- With enough turns every search ends with the answer that was due from the start. -/
theorem iterate_step {s : Search} {k : Nat} (enough : s.turns ≤ k) :
    step^[k] s = answered s.due := by
  induction k generalizing s with
  | zero =>
    cases s with
    | answered c => rfl
    | looking work found => cases enough
  | succ k ih => rw [Function.iterate_succ_apply, ih (turns_step_le enough), due_step]

end Search

namespace OutlineNode

/-- The node with other nodes below it. -/
def withChildren : OutlineNode → List OutlineNode → OutlineNode
  | call callee _, cs => call callee cs
  | classDef declaration decorators _, cs => classDef declaration decorators cs

@[simp] theorem children_withChildren (n : OutlineNode) (cs : List OutlineNode) :
    (n.withChildren cs).children = cs := by
  cases n <;> rfl

@[simp] theorem startsApplication_withChildren (n : OutlineNode) (cs : List OutlineNode) :
    (n.withChildren cs).startsApplication = n.startsApplication := by
  rcases n with ⟨_ | name, _⟩ | ⟨declaration, decorators, _⟩ <;> rfl

@[simp] theorem declaresBlock_withChildren (n : OutlineNode) (cs : List OutlineNode) :
    (n.withChildren cs).declaresBlock = n.declaresBlock := by
  rcases n with ⟨callee, _⟩ | ⟨_ | _, decorators, _⟩ <;> rfl

theorem any_nodesOf_cons (p : OutlineNode → Bool) (n : OutlineNode) (ns : List OutlineNode) :
    (nodesOf (n :: ns)).any p = (p n || ((nodesOf n.children).any p || (nodesOf ns).any p)) := by
  rw [nodesOf_cons, nodesOf_append, List.any_cons, List.any_append]

end OutlineNode

namespace Outline

/-- Somewhere a function is called whose name begins like those that start an application. -/
def CallsBootstrap (o : Outline) : Prop :=
  ∃ callee children, .call (some callee) children ∈ nodesOf o ∧
    "bootstrap".toList <+: callee.toList

/-- Somewhere a class is declared that is decorated with a call for one of the building blocks. -/
def DeclaresBlock (o : Outline) : Prop :=
  ∃ decorators children, .classDef true decorators children ∈ nodesOf o ∧
    ∃ name ∈ ["Component", "Directive", "Pipe", "NgModule", "Injectable"], some name ∈ decorators

theorem callsBootstrap_iff {o : Outline} :
    o.CallsBootstrap ↔ ∃ n ∈ nodesOf o, n.startsApplication = true := by
  constructor
  · rintro ⟨callee, children, hmem, hprefix⟩
    exact ⟨_, hmem, List.isPrefixOf_iff_prefix.mpr hprefix⟩
  · rintro ⟨n, hmem, starts⟩
    rcases n with ⟨_ | callee, children⟩ | ⟨declaration, decorators, children⟩
    · cases starts
    · exact ⟨callee, children, hmem, List.isPrefixOf_iff_prefix.mp starts⟩
    · cases starts

theorem declaresBlock_iff {o : Outline} :
    o.DeclaresBlock ↔ ∃ n ∈ nodesOf o, n.declaresBlock = true := by
  constructor
  · rintro ⟨decorators, children, hmem, name, hname, hdecorator⟩
    refine ⟨_, hmem, List.any_eq_true.mpr ⟨some name, hdecorator, ?_⟩⟩
    exact decide_eq_true hname
  · rintro ⟨n, hmem, declares⟩
    rcases n with ⟨callee, children⟩ | ⟨_ | _, decorators, children⟩
    · cases declares
    · cases declares
    · obtain ⟨_ | name, hdecorator, hname⟩ := List.any_eq_true.mp declares
      · cases hname
      · exact ⟨decorators, children, hmem, name, of_decide_eq_true hname, hdecorator⟩

/-- The outlines differ only in the order of siblings, at any depth. -/
inductive Reordered : Outline → Outline → Prop
  | nil : Reordered [] []
  | cons (n : OutlineNode) {cs ns ms : Outline} : Reordered n.children cs → Reordered ns ms →
      Reordered (n :: ns) (n.withChildren cs :: ms)
  | swap (n m : OutlineNode) (ns : Outline) : Reordered (n :: m :: ns) (m :: n :: ns)
  | trans {ns ms ks : Outline} : Reordered ns ms → Reordered ms ks → Reordered ns ks

/-- The second outline has all nodes of the first one, and perhaps more, at any depth. -/
inductive Grown : Outline → Outline → Prop
  | nil : Grown [] []
  | keep (n : OutlineNode) {cs ns ms : Outline} : Grown n.children cs → Grown ns ms →
      Grown (n :: ns) (n.withChildren cs :: ms)
  /-- A new node beside the others, or around some of them. -/
  | add (n : OutlineNode) {inside ns ms : Outline} : Grown inside n.children → Grown ns ms →
      Grown (inside ++ ns) (n :: ms)

section

variable {p : OutlineNode → Bool} {o o' : Outline}

theorem Reordered.any_eq (h : Reordered o o') (own : ∀ n cs, p (n.withChildren cs) = p n) :
    (nodesOf o').any p = (nodesOf o).any p := by
  induction h with
  | nil => rfl
  | cons n _ _ children siblings =>
    rw [any_nodesOf_cons, any_nodesOf_cons, own, children_withChildren, children, siblings]
  | swap n m ns =>
    simp only [any_nodesOf_cons]
    ac_rfl
  | trans _ _ first second => rw [second, first]

theorem Grown.any_of_any (h : Grown o o') (own : ∀ n cs, p (n.withChildren cs) = p n)
    (hany : (nodesOf o).any p = true) : (nodesOf o').any p = true := by
  induction h with
  | nil => exact hany
  | keep n _ _ children siblings =>
    simp only [any_nodesOf_cons, own, children_withChildren, Bool.or_eq_true] at hany ⊢
    exact hany.imp_right (Or.imp children siblings)
  | add n _ _ children siblings =>
    rw [nodesOf_append, List.any_append, Bool.or_eq_true] at hany
    rw [any_nodesOf_cons, Bool.or_eq_true, Bool.or_eq_true]
    exact .inr (hany.imp children siblings)

end

end Outline

namespace Classification

/-- The classifications from the one that says least up to the one that wins over the others. -/
def rank : Classification → Nat
  | plainModule => 0
  | frameworkDecorated => 1
  | entryBootstrap => 2

theorem rank_le (c : Classification) : c.rank ≤ entryBootstrap.rank := by cases c <;> decide

end Classification

namespace Outline

theorem rank_verdict_le {left left' : List OutlineNode}
    (starts : left.any startsApplication = true → left'.any startsApplication = true)
    (declares : left.any declaresBlock = true → left'.any declaresBlock = true) :
    (verdict left false).rank ≤ (verdict left' false).rank := by
  unfold verdict
  by_cases hstarts' : left'.any startsApplication = true
  · rw [if_pos hstarts']
    exact Classification.rank_le _
  · rw [if_neg hstarts', if_neg (mt starts hstarts'), Bool.false_or, Bool.false_or]
    by_cases hdeclares : left.any declaresBlock = true
    · refine Nat.le_of_eq ?_
      rw [if_pos hdeclares, if_pos (declares hdeclares)]
    · rw [if_neg hdeclares]
      exact Nat.zero_le _

/-- The search takes one turn for each node at most, and one to end. A call of a bootstrap function
anywhere makes the outline that of an entry; else the declaration of a building block anywhere makes
it decorated; else it is plain. So siblings can stand in any order, and nodes that are added never
lower the classification. -/
theorem classify_of_nodes (o : Outline) :
    Search.step^[(nodesOf o).length + 1] (.looking o false) = .answered o.classify ∧
    (o.classify = .entryBootstrap ↔ o.CallsBootstrap) ∧
    (o.classify = .frameworkDecorated ↔ ¬ o.CallsBootstrap ∧ o.DeclaresBlock) ∧
    (o.classify = .plainModule ↔ ¬ o.CallsBootstrap ∧ ¬ o.DeclaresBlock) ∧
    (∀ o', Reordered o o' → o'.classify = o.classify) ∧
    ∀ o', Grown o o' → o.classify.rank ≤ o'.classify.rank := by
  simp only [classify_eq_verdict, callsBootstrap_iff, declaresBlock_iff]
  refine ⟨Search.iterate_step (Nat.le_refl _), verdict_eq_entryBootstrap,
    verdict_eq_frameworkDecorated, verdict_eq_plainModule, ?_, ?_⟩
  · intro o' h
    rw [verdict, verdict, h.any_eq startsApplication_withChildren,
      h.any_eq declaresBlock_withChildren]
  · intro o' h
    exact rank_verdict_le (h.any_of_any startsApplication_withChildren)
      (h.any_of_any declaresBlock_withChildren)

namespace Trial

/-- A call with a component in it, and one more call. -/
def outline : Outline := [.call (some "f") [.classDef true [some "Component"] []], .call none []]

def swapped : Outline := [.call none [], .call (some "f") [.classDef true [some "Component"] []]]

/-- The component stands in a new call, beside which there is a bootstrap call. -/
def grown : Outline :=
  [.call (some "f") [.call (some "g") [.classDef true [some "Component"] []]],
    .call (some "bootstrapModule") [], .call none []]

theorem outline_swapped : Reordered outline swapped := .swap _ _ _

theorem outline_grown : Grown outline grown :=
  .keep (.call _ _) (.add (.call _ _) (.keep (.classDef _ _ _) .nil .nil) .nil)
    (.add (.call _ _) .nil (.keep (.call _ _) .nil .nil))

end Trial

theorem classify_of_nodes_trial :
    Search.step^[4] (.looking Trial.outline false) = .answered .frameworkDecorated ∧
    Trial.swapped.classify = Trial.outline.classify ∧
    Trial.outline.classify.rank ≤ Trial.grown.classify.rank := by
  obtain ⟨ends, -, decorated, -, reordered, grown⟩ := classify_of_nodes Trial.outline
  have hdecorated : Trial.outline.classify = .frameworkDecorated := by decide
  rw [hdecorated] at ends
  exact ⟨ends, reordered _ Trial.outline_swapped, grown _ Trial.outline_grown⟩

end Outline

end LiveLoader
