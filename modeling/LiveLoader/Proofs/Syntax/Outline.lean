import LiveLoader.Proofs.Forest
import LiveLoader.Proofs.Outline
import LiveLoader.Proofs.Syntax.Node
import LiveLoader.Syntax.Outline

/-!
# What an outline shows

The visit of a tree leaves the outline on its stack and nothing else. The nodes of the outline are the
calls and classes of the tree, one for each, and what is inside what and comes before what is the same
in both. So the classification of a program can be read off the nodes of its tree.
-/

namespace LiveLoader.Syntax

open OutlineBuilder (visit visitAll)

namespace Node

/-- Calls and classes are shown in an outline. -/
def isShown (n : Node) : Bool :=
  match n.form with
  | .call _ _ | .classDef _ => true
  | _ => false

/-- The node of an outline says of a call what its callee is named, and of a class whether it is a
declaration and what its decorators are named. -/
def Shows : Node → OutlineNode → Prop
  | mk (.call _ _) _ parts, .call callee _ => callee = parts.head?.bind calleeName?
  | mk (.classDef info) _ parts, .classDef declaration decorators _ =>
    declaration = info.isDeclaration ∧
      decorators = (parts.head?.elim [] children).map decoratorName?
  | _, _ => False

theorem outlined?_isSome (n : Node) : n.outlined?.isSome = n.isShown := by
  cases n with
  | mk form span parts => cases form <;> rfl

theorem outlined?_of_isShown {n : Node} (h : n.isShown = true) : ∃ node, n.outlined? = some node :=
  Option.isSome_iff_exists.mp ((outlined?_isSome n).trans h)

theorem outlined?_eq_none {n : Node} : n.outlined? = none ↔ n.isShown = false := by
  rw [← outlined?_isSome, Option.isSome_eq_false_iff, Option.isNone_iff_eq_none]

/-- The node that a call or a class becomes shows it, and has what was found in it below. -/
theorem shows_of_outlined? {n : Node} {node : Outline → OutlineNode}
    (h : n.outlined? = some node) (found : Outline) :
    n.Shows (node found) ∧ (node found).children = found := by
  unfold outlined? at h
  split at h
  case h_1 =>
    cases h
    exact ⟨rfl, rfl⟩
  case h_2 =>
    cases h
    exact ⟨⟨rfl, rfl⟩, rfl⟩
  case h_3 => cases h

/-- The outline of a tree, read off its shape. -/
def outline : Node → Outline :=
  fold fun n parts => match n.outlined? with
    | some node => [node parts.flatten]
    | none => parts.flatten

theorem outline_mk (form : Form) (span : Span) (children : List Node) :
    outline (mk form span children) = match (mk form span children).outlined? with
      | some node => [node (children.flatMap outline)]
      | none => children.flatMap outline := by
  rw [outline, fold_mk, List.flatMap_def]

theorem outline_of_outlined? {n : Node} {node : Outline → OutlineNode}
    (h : n.outlined? = some node) : n.outline = [node (n.children.flatMap outline)] := by
  cases n with
  | mk form span children => rw [outline_mk, h, children_mk]

theorem outline_of_not_isShown {n : Node} (h : n.isShown = false) :
    n.outline = n.children.flatMap outline := by
  cases n with
  | mk form span children => rw [outline_mk, outlined?_eq_none.mpr h, children_mk]

end Node

namespace OutlineBuilder

/-- A visit that adds to the top of the stack what each tree shows adds what all of them show. -/
theorem visitAll_of_visit {ns : List Node} (each : ∀ n ∈ ns, ∀ found around,
      visit n ⟨found :: around⟩ = ⟨(found ++ n.outline) :: around⟩)
    (found : Outline) (around : List Outline) :
    visitAll ns ⟨found :: around⟩ = ⟨(found ++ ns.flatMap Node.outline) :: around⟩ := by
  induction ns generalizing found with
  | nil => simp [visitAll]
  | cons n ns ih =>
    rw [visitAll, each n List.mem_cons_self,
      ih (fun m hm => each m (List.mem_cons_of_mem n hm)), List.flatMap_cons, List.append_assoc]

theorem visit_eq (n : Node) (found : Outline) (around : List Outline) :
    visit n ⟨found :: around⟩ = ⟨(found ++ n.outline) :: around⟩ := by
  induction n generalizing found around with
  | mk form span children ih =>
    rw [visit, Node.outline_mk]
    cases (Node.mk form span children).outlined? with
    | none => exact visitAll_of_visit ih found around
    | some node =>
      simp only [enter, visitAll_of_visit ih, List.nil_append]
      rfl

theorem visitAll_eq (ns : List Node) (found : Outline) (around : List Outline) :
    visitAll ns ⟨found :: around⟩ = ⟨(found ++ ns.flatMap Node.outline) :: around⟩ :=
  visitAll_of_visit (fun n _ => visit_eq n) found around

end OutlineBuilder

theorem Program.outline_eq (p : Program) : p.outline = p.body.flatMap Node.outline := by
  rw [outline, OutlineBuilder.start, OutlineBuilder.visitAll_eq]
  rfl

/-- The node of the outline that shows a call or a class, with all that is shown below it. -/
def Node.shownBy? (n : Node) : Option OutlineNode :=
  n.outlined?.map fun node => node (n.children.flatMap Node.outline)

theorem nodesOf_outline_of_nodes {ns : List Node}
    (each : ∀ n ∈ ns, OutlineNode.nodesOf n.outline = n.nodes.filterMap Node.shownBy?) :
    OutlineNode.nodesOf (ns.flatMap Node.outline) =
      (ns.flatMap Node.nodes).filterMap Node.shownBy? := by
  rw [OutlineNode.nodesOf_eq_flatMap, List.flatMap_assoc, List.filterMap_flatMap]
  refine List.flatMap_congr fun n hn => ?_
  rw [← OutlineNode.nodesOf_eq_flatMap, each n hn]

theorem nodesOf_outline (n : Node) :
    OutlineNode.nodesOf n.outline = n.nodes.filterMap Node.shownBy? := by
  induction n with
  | mk form span children ih =>
    rw [Node.outline_mk, Node.nodes_mk, List.filterMap_cons, ← nodesOf_outline_of_nodes ih,
      Node.shownBy?, Node.children_mk]
    cases h : (Node.mk form span children).outlined? with
    | none => rfl
    | some node =>
      rw [OutlineNode.nodesOf, OutlineNode.nodes_eq, (Node.shows_of_outlined? h _).2,
        OutlineNode.nodesOf, List.append_nil]
      rfl

/-- The nodes of a program's outline are those that show the calls and classes of its tree. -/
theorem Program.nodesOf_outline (p : Program) :
    OutlineNode.nodesOf p.outline = (Node.nodesOf p.body).filterMap Node.shownBy? := by
  rw [p.outline_eq, Node.nodesOf_eq_flatMap]
  exact nodesOf_outline_of_nodes fun n _ => Syntax.nodesOf_outline n

/-- A call of a plain name, or of a plain member, that begins like the names which start an
application. -/
def Node.StartsApplication (n : Node) : Prop :=
  ∃ optional pure span callee args name, n = mk (.call optional pure) span (callee :: args) ∧
    callee.calleeName? = some name ∧ OutlineNode.bootstrapName.toList <+: name.toList

/-- A declaration of a class with a decorator that is a call of the name of a building block. -/
def Node.DeclaresBlock (n : Node) : Prop :=
  ∃ info span decorators parts, n = mk (.classDef info) span (decorators :: parts) ∧
    info.isDeclaration = true ∧ ∃ d ∈ decorators.children, ∃ name ∈ OutlineNode.buildingBlocks,
      decoratorName? d = some name

theorem Node.shownBy?_startsApplication (n : Node) :
    (∃ o, n.shownBy? = some o ∧ o.startsApplication = true) ↔ n.StartsApplication := by
  constructor
  · rintro ⟨o, ho, starts⟩
    obtain ⟨node, hnode, rfl⟩ := Option.map_eq_some_iff.mp ho
    unfold outlined? at hnode
    split at hnode
    case h_1 optional pure span parts =>
      cases hnode
      cases hname : parts.head?.bind calleeName? with
      | none => simp [hname, OutlineNode.startsApplication] at starts
      | some name =>
        obtain ⟨callee, hcallee, hname'⟩ := Option.bind_eq_some_iff.mp hname
        obtain ⟨args, rfl⟩ := List.head?_eq_some_iff.mp hcallee
        rw [hname] at starts
        exact ⟨optional, pure, span, callee, args, name, rfl, hname',
          List.isPrefixOf_iff_prefix.mp starts⟩
    case h_2 =>
      cases hnode
      cases starts
    case h_3 => cases hnode
  · rintro ⟨optional, pure, span, callee, args, name, rfl, hname, begins⟩
    refine ⟨_, rfl, ?_⟩
    rw [List.head?_cons, Option.bind_some, hname]
    exact List.isPrefixOf_iff_prefix.mpr begins

theorem Node.shownBy?_declaresBlock (n : Node) :
    (∃ o, n.shownBy? = some o ∧ o.declaresBlock = true) ↔ n.DeclaresBlock := by
  constructor
  · rintro ⟨o, ho, declares⟩
    obtain ⟨node, hnode, rfl⟩ := Option.map_eq_some_iff.mp ho
    unfold outlined? at hnode
    split at hnode
    case h_1 =>
      cases hnode
      cases declares
    case h_2 info span parts =>
      cases hnode
      cases hd : info.isDeclaration with
      | false => simp [hd, OutlineNode.declaresBlock] at declares
      | true =>
        cases parts with
        | nil => simp [hd, OutlineNode.declaresBlock] at declares
        | cons decorators parts =>
          refine ⟨info, span, decorators, parts, rfl, hd, ?_⟩
          simpa [hd, OutlineNode.declaresBlock, Option.any_eq_true, and_comm] using declares
    case h_3 => cases hnode
  · rintro ⟨info, span, decorators, parts, rfl, hd, declares⟩
    refine ⟨_, rfl, ?_⟩
    simpa [hd, OutlineNode.declaresBlock, Option.any_eq_true, and_comm] using declares

section

variable (p : Program)

theorem Program.exists_startsApplication :
    (∃ o ∈ OutlineNode.nodesOf p.outline, o.startsApplication = true) ↔
      ∃ n ∈ Node.nodesOf p.body, n.StartsApplication := by
  simp only [p.nodesOf_outline, List.mem_filterMap, ← Node.shownBy?_startsApplication]
  grind

theorem Program.exists_declaresBlock :
    (∃ o ∈ OutlineNode.nodesOf p.outline, o.declaresBlock = true) ↔
      ∃ n ∈ Node.nodesOf p.body, n.DeclaresBlock := by
  simp only [p.nodesOf_outline, List.mem_filterMap, ← Node.shownBy?_declaresBlock]
  grind

theorem Program.classify_eq_entryBootstrap : p.outline.classify = .entryBootstrap ↔
    ∃ n ∈ Node.nodesOf p.body, n.StartsApplication := by
  rw [Outline.classify_eq_verdict, Outline.verdict_eq_entryBootstrap, p.exists_startsApplication]

theorem Program.classify_eq_frameworkDecorated : p.outline.classify = .frameworkDecorated ↔
    (¬ ∃ n ∈ Node.nodesOf p.body, n.StartsApplication) ∧
      ∃ n ∈ Node.nodesOf p.body, n.DeclaresBlock := by
  rw [Outline.classify_eq_verdict, Outline.verdict_eq_frameworkDecorated,
    p.exists_startsApplication, p.exists_declaresBlock]

theorem Program.classify_eq_plainModule : p.outline.classify = .plainModule ↔
    (¬ ∃ n ∈ Node.nodesOf p.body, n.StartsApplication) ∧
      ¬ ∃ n ∈ Node.nodesOf p.body, n.DeclaresBlock := by
  rw [Outline.classify_eq_verdict, Outline.verdict_eq_plainModule,
    p.exists_startsApplication, p.exists_declaresBlock]

end

end LiveLoader.Syntax
