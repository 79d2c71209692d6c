import LiveLoader.Bootstrap
import LiveLoader.Proofs.Syntax.Outline

/-!
# The calls that are wrapped

Each call that is wrapped is a call in the tree that starts the application. So the outline of the
program shows it, and the program is classified as one that starts the application.
-/

namespace LiveLoader.Bootstrap

open Syntax

theorem callsOf_eq_flatMap (ns : List Node) : callsOf ns = ns.flatMap calls := by
  induction ns with
  | nil => rfl
  | cons n ns ih => rw [callsOf, List.flatMap_cons, ih]

/-- The call that a statement starts the application with. -/
def startingCall? : Node → Option Node
  | .mk .expressionStatement _ [e] => entryCall? e
  | _ => none

theorem startingCall?_eq_some {n call : Node} (h : startingCall? n = some call) :
    ∃ span e, n = .mk .expressionStatement span [e] ∧ entryCall? e = some call := by
  unfold startingCall? at h
  split at h
  case h_1 span e => exact ⟨span, e, rfl, h⟩
  case h_2 => cases h

/-- The walk takes the call of a statement, or goes on inside. -/
theorem calls_eq (n : Node) : calls n = match startingCall? n with
    | some call => [call.span]
    | none => n.children.flatMap calls := by
  cases n with
  | mk form span children =>
    rw [← callsOf_eq_flatMap, Node.children_mk]
    unfold calls
    split
    case h_1 span' e heq =>
      cases heq
      rw [startingCall?]
      cases entryCall? e with
      | some call => rfl
      | none => simp only [callsOf, List.append_nil]
    case h_2 _ _ _ other heq =>
      cases heq
      have hnone : startingCall? (.mk form span children) = none := by
        unfold startingCall?
        split
        case h_1 span' e heq => cases heq; exact (other e rfl rfl).elim
        case h_2 => rfl
      rw [hnone]

/-- The call that an expression comes down to starts the application and stands in it. -/
theorem entryCall?_eq_some {e call : Node} (h : entryCall? e = some call) :
    call ∈ e.nodes ∧ call.StartsApplication := by
  fun_induction entryCall? e with
  | case1 optional pure span callee args starts =>
    cases h
    refine ⟨Node.self_mem_nodes _, optional, pure, span, callee, args, ?_⟩
    obtain ⟨name, hname, hprefix⟩ := (Option.any_eq_true _ _).mp starts
    exact ⟨name, rfl, hname, List.isPrefixOf_iff_prefix.mp hprefix⟩
  | case2 optional pure span args name opt mspan object starts step ih =>
    obtain ⟨hmem, hcall⟩ := ih h
    refine ⟨Node.mem_nodes_of_child List.mem_cons_self ?_, hcall⟩
    exact Node.mem_nodes_of_child List.mem_cons_self hmem
  | case3 => cases h
  | case4 => cases h
  | case5 span e ih =>
    obtain ⟨hmem, hcall⟩ := ih h
    exact ⟨Node.mem_nodes_of_child List.mem_cons_self hmem, hcall⟩
  | case6 span e ih =>
    obtain ⟨hmem, hcall⟩ := ih h
    exact ⟨Node.mem_nodes_of_child List.mem_cons_self hmem, hcall⟩
  | case7 => cases h

/-- Each place that is wrapped is that of a call which starts the application. -/
theorem exists_call_of_mem_calls {n : Node} {span : Span} (h : span ∈ calls n) :
    ∃ call ∈ n.nodes, call.span = span ∧ call.StartsApplication := by
  induction n with
  | mk form place children ih =>
    rw [calls_eq] at h
    cases hstarts : startingCall? (.mk form place children) with
    | some call =>
      rw [hstarts] at h
      obtain ⟨span', e, heq, he⟩ := startingCall?_eq_some hstarts
      cases heq
      obtain ⟨hmem, hcall⟩ := entryCall?_eq_some he
      exact ⟨call, Node.mem_nodes_of_child List.mem_cons_self hmem,
        (List.mem_singleton.mp h).symm, hcall⟩
    | none =>
      rw [hstarts] at h
      obtain ⟨n, hn, h⟩ := List.mem_flatMap.mp h
      obtain ⟨call, hmem, hcall⟩ := ih n hn h
      exact ⟨call, Node.mem_nodes_of_child hn hmem, hcall⟩

/-- A program with a call to wrap starts the application. -/
theorem classify_of_callsOf_ne_nil {p : Program} (h : callsOf p.body ≠ []) :
    p.outline.classify = .entryBootstrap := by
  obtain ⟨span, hspan⟩ := List.exists_mem_of_ne_nil _ h
  rw [callsOf_eq_flatMap] at hspan
  obtain ⟨n, hn, hspan⟩ := List.mem_flatMap.mp hspan
  obtain ⟨call, hmem, -, starts⟩ := exists_call_of_mem_calls hspan
  exact p.classify_eq_entryBootstrap.mpr ⟨call, Node.mem_nodesOf.mpr ⟨n, hn, hmem⟩, starts⟩

end LiveLoader.Bootstrap
