import LiveLoader.Proofs.Forest
import LiveLoader.Proofs.Syntax.Outline

/-!
# Where an outline shows what

Each call and each class of a program has a place in the outline. A place is found by counting: what
stands before a node in the source comes before it in the outline, and a node that does not show
leaves its children to the call or class around it.
-/

namespace LiveLoader.Syntax

open Forest

namespace Node

/-- How many roots the outline has for the trees before one of them. -/
def rootsBefore (ns : List Node) (i : Nat) : Nat := ((ns.take i).flatMap outline).length

/-- The address in the outline of what stands at an address in the trees. -/
def place : List Node → List Nat → List Nat
  | _, [] => []
  | ns, i :: a =>
    match ns[i]? with
    | some n => shift (rootsBefore ns i)
        (if n.isShown then 0 :: place n.children a else place n.children a)
    | none => []

@[simp] theorem place_nil (ns : List Node) : place ns [] = [] := rfl

/-- The address in the outline of a tree alone. -/
def placeIn (n : Node) (a : List Nat) : List Nat :=
  if n.isShown then 0 :: place n.children a else place n.children a

/-- A call or a class stands there. -/
def ShownAt (ns : List Node) (a : List Nat) : Prop :=
  ∃ n, get? children ns a = some n ∧ n.isShown = true

section

variable {ns : List Node} {n : Node} {i : Nat} {a b : List Nat}

theorem place_cons (h : ns[i]? = some n) :
    place ns (i :: a) = shift (rootsBefore ns i) (placeIn n a) := by
  rw [place, h, placeIn]

/-- For a tree alone its number is left out of account. -/
theorem place_singleton (n : Node) (a : List Nat) : place [n] (0 :: a) = placeIn n a :=
  (place_cons (n := n) rfl).trans (shift_zero _)

theorem ShownAt.ne_nil (h : ShownAt ns a) : a ≠ [] := by
  obtain ⟨n, hn, -⟩ := h
  exact ne_nil_of_get? hn

/-- A call or a class is a root itself, or stands below one. -/
theorem shownAt_cons : ShownAt ns (i :: a) ↔
    ∃ root, ns[i]? = some root ∧ (a = [] ∧ root.isShown = true ∨ ShownAt root.children a) := by
  constructor
  · rintro ⟨n, hn, shown⟩
    obtain ⟨root, hroot, ⟨ha, rfl⟩ | h⟩ := exists_root_of_get? hn
    · exact ⟨root, hroot, .inl ⟨ha, shown⟩⟩
    · exact ⟨root, hroot, .inr ⟨n, h, shown⟩⟩
  · rintro ⟨root, hroot, ⟨ha, shown⟩ | ⟨n, hn, shown⟩⟩
    · exact ⟨root, get?_of_root hroot (.inl ⟨ha, rfl⟩), shown⟩
    · exact ⟨n, get?_of_root hroot (.inr hn), shown⟩

/-- The outline of trees has the outline of each at its place. -/
theorem outline_split (h : ns[i]? = some n) : ∃ before behind,
    ns.flatMap outline = before ++ (n.outline ++ behind) ∧ before.length = rootsBefore ns i := by
  refine ⟨(ns.take i).flatMap outline, (ns.drop (i + 1)).flatMap outline, ?_, rfl⟩
  obtain ⟨hi, rfl⟩ := List.getElem?_eq_some_iff.mp h
  rw [← List.flatMap_cons, ← List.flatMap_append, List.getElem_cons_drop, List.take_append_drop]

theorem rootsBefore_add_le {j : Nat} (h : ns[i]? = some n) (hij : i < j) :
    rootsBefore ns i + n.outline.length ≤ rootsBefore ns j := by
  have hsplit : ns.take j = ns.take i ++ n :: (ns.drop (i + 1)).take (j - (i + 1)) := by
    rw [← Nat.add_sub_of_le (Nat.succ_le_of_lt hij), List.take_add, List.take_add_one, h,
      Nat.add_sub_cancel_left]
    simp
  rw [rootsBefore, rootsBefore, hsplit, List.flatMap_append, List.flatMap_cons]
  simp only [List.length_append]
  omega

end

/-- What the outline has at the place of a call or a class is the node that shows it. -/
theorem get?_place {ns : List Node} {a : List Nat} {n : Node} {o : OutlineNode}
    (hn : get? children ns a = some n) (ho : n.shownBy? = some o) :
    get? OutlineNode.children (ns.flatMap outline) (place ns a) = some o := by
  induction a generalizing ns with
  | nil => cases hn
  | cons i a ih =>
    obtain ⟨node, hnode, rfl⟩ := Option.map_eq_some_iff.mp ho
    obtain ⟨root, hroot, hn⟩ := exists_root_of_get? hn
    obtain ⟨before, behind, hsplit, hbefore⟩ := outline_split hroot
    suffices inRoot : get? OutlineNode.children root.outline (placeIn root a) =
        some (node (n.children.flatMap outline)) by
      rw [place_cons hroot, hsplit, ← hbefore, get?_shift]
      cases hp : placeIn root a with
      | nil => simp [hp, get?] at inRoot
      | cons j b =>
        rw [hp] at inRoot
        rw [get?_append_left behind (lt_length_of_get? inRoot), inRoot]
    cases hshown : root.isShown with
    | true =>
      obtain ⟨rootNode, hrootNode⟩ := outlined?_of_isShown hshown
      rw [outline_of_outlined? hrootNode, placeIn, if_pos hshown]
      refine get?_of_root rfl ?_
      rcases hn with ⟨rfl, rfl⟩ | hn
      · rw [hnode] at hrootNode
        cases hrootNode
        exact .inl ⟨rfl, rfl⟩
      · rw [(shows_of_outlined? hrootNode _).2]
        exact .inr (ih hn)
    | false =>
      rw [outline_of_not_isShown hshown, placeIn, hshown, if_neg Bool.false_ne_true]
      rcases hn with ⟨rfl, rfl⟩ | hn
      · rw [outlined?_eq_none.mpr hshown] at hnode
        cases hnode
      · exact ih hn

/-- The place of a call or a class is one of the outline. -/
theorem exists_get?_place {ns : List Node} {a : List Nat} (h : ShownAt ns a) :
    ∃ o, get? OutlineNode.children (ns.flatMap outline) (place ns a) = some o := by
  obtain ⟨n, hn, shown⟩ := h
  obtain ⟨node, hnode⟩ := outlined?_of_isShown shown
  exact ⟨_, get?_place hn (Option.map_eq_some_iff.mpr ⟨node, hnode, rfl⟩)⟩

/-- All nodes of the outline are at the place of a call or a class. -/
def Covered (ns : List Node) : Prop :=
  ∀ b o, get? OutlineNode.children (ns.flatMap outline) b = some o →
    ∃ a, ShownAt ns a ∧ place ns a = b

theorem covered_of_covered_singleton {ns : List Node} (each : ∀ n ∈ ns, Covered [n]) :
    Covered ns := by
  induction ns with
  | nil =>
    intro b o h
    cases b with
    | nil => cases h
    | cons j b => cases h
  | cons n ns ih =>
    intro b o h
    cases b with
    | nil => cases h
    | cons j b =>
      rw [List.flatMap_cons] at h
      by_cases hj : j < n.outline.length
      · rw [get?_append_left _ hj, ← List.flatMap_singleton outline n] at h
        obtain ⟨a, ha, hplace⟩ := each n List.mem_cons_self (j :: b) o h
        cases a with
        | nil => exact absurd rfl ha.ne_nil
        | cons i a =>
          obtain ⟨root, hroot, hshown⟩ := shownAt_cons.mp ha
          obtain ⟨rfl, rfl⟩ : i = 0 ∧ n = root := by
            cases i with
            | zero => exact ⟨rfl, Option.some.inj hroot⟩
            | succ i => cases hroot
          refine ⟨0 :: a, shownAt_cons.mpr ⟨n, rfl, hshown⟩, ?_⟩
          rw [← hplace, place_singleton, place_cons (n := n) rfl]
          exact shift_zero _
      · obtain ⟨k, rfl⟩ := Nat.exists_eq_add_of_le (Nat.le_of_not_lt hj)
        rw [← shift_cons, get?_shift] at h
        obtain ⟨a, ha, hplace⟩ := ih (fun m hm => each m (List.mem_cons_of_mem n hm)) (k :: b) o h
        cases a with
        | nil => exact absurd rfl ha.ne_nil
        | cons i a =>
          obtain ⟨root, hroot, hshown⟩ := shownAt_cons.mp ha
          refine ⟨(i + 1) :: a, shownAt_cons.mpr ⟨root, hroot, hshown⟩, ?_⟩
          have hbefore : rootsBefore (n :: ns) (i + 1) = n.outline.length + rootsBefore ns i := by
            simp [rootsBefore]
          have hroot' : (n :: ns)[i + 1]? = some root := hroot
          rw [place_cons hroot', hbefore, shift_add, ← place_cons hroot, hplace, shift_cons]

theorem covered_singleton (n : Node) : Covered [n] := by
  induction n with
  | mk form span children ih =>
    intro b o h
    have inside := covered_of_covered_singleton ih
    rw [List.flatMap_singleton] at h
    cases hshown : (mk form span children).isShown with
    | true =>
      obtain ⟨node, hnode⟩ := outlined?_of_isShown hshown
      rw [outline_of_outlined? hnode, children_mk] at h
      cases b with
      | nil => cases h
      | cons j b =>
        obtain rfl : j = 0 := Nat.lt_one_iff.mp (lt_length_of_get? h)
        obtain ⟨root, hroot, hbelow⟩ := exists_root_of_get? h
        obtain rfl := Option.some.inj hroot
        rcases hbelow with ⟨rfl, -⟩ | hbelow
        · refine ⟨[0], shownAt_cons.mpr ⟨_, rfl, .inl ⟨rfl, hshown⟩⟩, ?_⟩
          rw [place_singleton, placeIn, if_pos hshown, place]
        · rw [(shows_of_outlined? hnode _).2] at hbelow
          obtain ⟨a, ha, rfl⟩ := inside b o hbelow
          refine ⟨0 :: a, shownAt_cons.mpr ⟨_, rfl, .inr ha⟩, ?_⟩
          rw [place_singleton, placeIn, if_pos hshown, children_mk]
    | false =>
      rw [outline_of_not_isShown hshown, children_mk] at h
      obtain ⟨a, ha, rfl⟩ := inside b o h
      refine ⟨0 :: a, shownAt_cons.mpr ⟨_, rfl, .inr ha⟩, ?_⟩
      rw [place_singleton, placeIn, hshown, if_neg Bool.false_ne_true, children_mk]

theorem covered (ns : List Node) : Covered ns :=
  covered_of_covered_singleton fun n _ => covered_singleton n

/-- What a tree shows has a place among the roots of its outline. -/
theorem exists_head_placeIn {n : Node} {a : List Nat}
    (h : a = [] ∧ n.isShown = true ∨ ShownAt n.children a) :
    ∃ k x, placeIn n a = k :: x ∧ k < n.outline.length := by
  obtain ⟨o, ho⟩ := exists_get?_place (shownAt_cons.mpr ⟨n, rfl, h⟩ : ShownAt [n] (0 :: a))
  rw [place_singleton, List.flatMap_singleton] at ho
  cases hp : placeIn n a with
  | nil => simp [hp, get?] at ho
  | cons k x =>
    rw [hp] at ho
    exact ⟨k, x, rfl, lt_length_of_get? ho⟩

/-- What a tree shows comes before all that a later tree shows. -/
theorem place_of_lt {ns : List Node} {i j : Nat} {a b : List Nat} (ha : ShownAt ns (i :: a))
    (hb : ShownAt ns (j :: b)) (hij : i < j) : ∃ k x l y,
      place ns (i :: a) = k :: x ∧ place ns (j :: b) = l :: y ∧ k < l := by
  obtain ⟨n, hn, ha⟩ := shownAt_cons.mp ha
  obtain ⟨m, hm, hb⟩ := shownAt_cons.mp hb
  obtain ⟨k, x, hk, hlt⟩ := exists_head_placeIn ha
  obtain ⟨l, y, hl, -⟩ := exists_head_placeIn hb
  refine ⟨rootsBefore ns i + k, x, rootsBefore ns j + l, y, ?_, ?_, ?_⟩
  · rw [place_cons hn, hk, shift_cons]
  · rw [place_cons hm, hl, shift_cons]
  · have := rootsBefore_add_le hn hij
    omega

theorem place_ne_nil {ns : List Node} {a : List Nat} (h : ShownAt ns a) : place ns a ≠ [] := by
  obtain ⟨o, ho⟩ := exists_get?_place h
  exact ne_nil_of_get? ho

/-- Places are above each other, and before each other, as their calls and classes are. The empty
address is taken in as the place above all. -/
theorem place_iff {ns : List Node} {a b : List Nat} (ha : a = [] ∨ ShownAt ns a)
    (hb : b = [] ∨ ShownAt ns b) :
    (place ns a <+: place ns b ↔ a <+: b) ∧ (place ns a < place ns b ↔ a < b) := by
  induction a generalizing ns b with
  | nil =>
    rcases hb with rfl | hb
    · simp
    · obtain ⟨j, b, rfl⟩ := List.exists_cons_of_ne_nil hb.ne_nil
      obtain ⟨l, y, hl⟩ := List.exists_cons_of_ne_nil (place_ne_nil hb)
      simp [hl]
  | cons i a ih =>
    have ha := ha.resolve_left (List.cons_ne_nil i a)
    rcases hb with rfl | hb
    · simp [place_ne_nil ha]
    · obtain ⟨j, b, rfl⟩ := List.exists_cons_of_ne_nil hb.ne_nil
      rcases Nat.lt_trichotomy i j with hij | rfl | hij
      · obtain ⟨k, x, l, y, hk, hl, hlt⟩ := place_of_lt ha hb hij
        simp [hk, hl, hlt, hij, List.cons_prefix_cons, List.cons_lt_cons_iff, Nat.ne_of_lt]
      · obtain ⟨n, hn, ha⟩ := shownAt_cons.mp ha
        obtain ⟨m, hm, hb⟩ := shownAt_cons.mp hb
        obtain rfl : n = m := Option.some.inj (hn.symm.trans hm)
        have below := ih (b := b) (ha.imp And.left id) (hb.imp And.left id)
        rw [place_cons hn, place_cons hn, shift_prefix_shift, shift_lt_shift, List.cons_prefix_cons,
          List.cons_lt_cons_iff]
        simp only [placeIn]
        split
        · simpa [List.cons_prefix_cons, List.cons_lt_cons_iff] using below
        · simpa using below
      · obtain ⟨l, y, k, x, hl, hk, hlt⟩ := place_of_lt hb ha hij
        have hne : k ≠ l := Nat.ne_of_gt hlt
        have hnlt : ¬ k < l := Nat.lt_asymm hlt
        have hne' : i ≠ j := Nat.ne_of_gt hij
        have hnlt' : ¬ i < j := Nat.lt_asymm hij
        simp [hk, hl, hne, hnlt, hne', hnlt', List.cons_prefix_cons, List.cons_lt_cons_iff]

end Node

/-- The visit of a program's tree ends with the outline alone on the stack. The calls and classes of
the tree correspond to the nodes of the outline: each has a place there, where a node shows just it,
no other place has a node, and one place is above or before another one as the call or class of the
one contains that of the other or comes before it. So the classification is decided by the nodes of
the tree. -/
theorem Program.outline_of_tree (p : Program) :
    (OutlineBuilder.visitAll p.body .start).stack = [p.outline] ∧
    (∃ place : List Nat → List Nat,
      (∀ a n, get? Node.children p.body a = some n → n.isShown = true →
        ∃ o, get? OutlineNode.children p.outline (place a) = some o ∧ n.Shows o) ∧
      (∀ b o, get? OutlineNode.children p.outline b = some o →
        ∃ a n, get? Node.children p.body a = some n ∧ n.isShown = true ∧ place a = b) ∧
      ∀ a n a' n', get? Node.children p.body a = some n → n.isShown = true →
        get? Node.children p.body a' = some n' → n'.isShown = true →
        (place a <+: place a' ↔ a <+: a') ∧ (place a < place a' ↔ a < a')) ∧
    (p.outline.classify = .entryBootstrap ↔ ∃ n ∈ Node.nodesOf p.body, n.StartsApplication) ∧
    (p.outline.classify = .frameworkDecorated ↔
      (¬ ∃ n ∈ Node.nodesOf p.body, n.StartsApplication) ∧
        ∃ n ∈ Node.nodesOf p.body, n.DeclaresBlock) ∧
    (p.outline.classify = .plainModule ↔
      (¬ ∃ n ∈ Node.nodesOf p.body, n.StartsApplication) ∧
        ¬ ∃ n ∈ Node.nodesOf p.body, n.DeclaresBlock) := by
  refine ⟨?_, ⟨Node.place p.body, ?_, ?_, ?_⟩, p.classify_eq_entryBootstrap,
    p.classify_eq_frameworkDecorated, p.classify_eq_plainModule⟩
  · rw [p.outline_eq, OutlineBuilder.start, OutlineBuilder.visitAll_eq, List.nil_append]
  · intro a n hn shown
    obtain ⟨node, hnode⟩ := Node.outlined?_of_isShown shown
    rw [p.outline_eq]
    exact ⟨_, Node.get?_place hn (Option.map_eq_some_iff.mpr ⟨node, hnode, rfl⟩),
      (Node.shows_of_outlined? hnode _).1⟩
  · intro b o ho
    rw [p.outline_eq] at ho
    obtain ⟨a, ⟨n, hn, shown⟩, hplace⟩ := Node.covered p.body b o ho
    exact ⟨a, n, hn, shown, hplace⟩
  · intro a n a' n' hn shown hn' shown'
    exact Node.place_iff (.inr ⟨n, hn, shown⟩) (.inr ⟨n', hn', shown'⟩)

end LiveLoader.Syntax
