import LiveLoader.Proofs.Bootstrap.Calls
import LiveLoader.Proofs.Syntax.Siblings
import LiveLoader.Proofs.Text.Splice

/-!
# Exact rewriting

Nothing is looked for inside a statement whose call is wrapped, so the wrapped calls stand apart and
each of them is exchanged once. The rewritten text is the source read from left to right, with a
wrapper around each of these calls and everything else as it was.
-/

namespace LiveLoader.Bootstrap

open Syntax

theorem isPlaced_of_startsApplication {n : Node} (h : n.StartsApplication) : n.isPlaced = true := by
  obtain ⟨optional, pure, span, callee, args, name, rfl, -⟩ := h
  rfl

theorem isWord_of_calleeName? {n : Node} {name : String} (h : n.calleeName? = some name) :
    n.isWord = true := by
  unfold Node.calleeName? at h
  unfold Node.isWord
  split at h
  case h_1 heq => rw [heq]
  case h_2 heq => rw [heq]
  case h_3 => cases h

theorem exists_placed_of_mem_calls (n : Node) (s : Span) (h : s ∈ calls n) :
    ∃ m ∈ n.nodes, m.isPlaced = true ∧ m.span = s := by
  obtain ⟨call, hcall, hspan, starts⟩ := exists_call_of_mem_calls h
  exact ⟨call, hcall, isPlaced_of_startsApplication starts, hspan⟩

/-- The calls found below a node are apart: a statement gives one call, and what is found in different
parts of a node is apart as the parts are. -/
theorem calls_apart {n : Node} (parts : n.PartsApart) : (calls n).Pairwise Span.Apart := by
  induction n with
  | mk form span children ih =>
    rw [calls_eq]
    split
    · exact List.pairwise_singleton _ _
    · refine Node.flatMap_apart exists_placed_of_mem_calls parts.siblings fun n hn => ?_
      exact ih n hn (parts.of_mem (Node.child_mem_nodes hn))

section

variable {p : Program}

theorem callsOf_apart (placed : p.WellPlaced) :
    (callsOf p.body).Pairwise Span.Apart := by
  rw [callsOf_eq_flatMap]
  exact Node.flatMap_apart exists_placed_of_mem_calls placed.roots fun n hn =>
    calls_apart (placed.partsApart hn)

/-- A call that starts the application has at least the name of its callee. -/
theorem callsOf_inText (placed : p.WellPlaced) {span : Span} (h : span ∈ callsOf p.body) :
    span.start < span.stop ∧ span.stop ≤ p.length := by
  rw [callsOf_eq_flatMap] at h
  obtain ⟨n, hn, h⟩ := List.mem_flatMap.mp h
  obtain ⟨call, hcall, rfl, starts⟩ := exists_call_of_mem_calls h
  have hmem : call ∈ Node.nodesOf p.body := Node.mem_nodesOf.mpr ⟨n, hn, hcall⟩
  refine ⟨?_, placed.inText call hmem (isPlaced_of_startsApplication starts)⟩
  obtain ⟨optional, pure, span, callee, args, name, rfl, hname, -⟩ := starts
  exact placed.nonempty_of_word hmem rfl List.mem_cons_self (isWord_of_calleeName? hname)

theorem callsOf_of_nested (nested : p.Nested) : (callsOf p.body).Pairwise Span.Apart ∧
    ∀ span ∈ callsOf p.body, span.start < span.stop ∧ span.stop ≤ p.length :=
  have placed := Program.wellPlaced_of_nested nested
  ⟨callsOf_apart placed, fun _ h => callsOf_inText placed h⟩

end

/-- The text of a call inside the promise that stores the application. -/
def stored (call : List Char) : List Char :=
  "Promise.resolve(".toList ++ call
    ++ ").then((ref) => \x7b window.ngRef = ref; return ref; \x7d)".toList

theorem wrap_eq_stored : wrap = stored := rfl

section

variable {path : Path} {source : List Char} {p : Program} {problems : Nat}

/-- The calls stand apart in the source, so each of them finds its place when it is wrapped. The
result is the source read from left to right with each call inside its wrapper and all else as it was;
with the calls themselves for the wrappers it is the source again. -/
theorem rewrite_of_wellPlaced (h : read (.ofPath path) source = .tree p problems)
    (placed : p.WellPlaced) :
    (callsOf p.body).Pairwise Span.Apart ∧
    (∀ span ∈ callsOf p.body, span.start < span.stop ∧ span.stop ≤ source.length) ∧
    (∃ spans : List Span, spans.Perm (callsOf p.body) ∧ spans.Pairwise Span.Before ∧
      Text.splice? source ((callsOf p.body).map fun span => ⟨span, wrap (Text.slice source span)⟩) =
        some (Text.mapAt stored source spans) ∧
      rewrite path source = .ok (Text.mapAt stored source spans) ∧
      Text.mapAt id source spans = source) ∧
    (callsOf p.body = [] → rewrite path source = .ok source) := by
  have apart := callsOf_apart placed
  have inText : ∀ span ∈ callsOf p.body, span.start < span.stop ∧ span.stop ≤ source.length := by
    intro span hspan
    rw [← length_of_read h]
    exact callsOf_inText placed hspan
  have hrewrite : rewrite path source = .ok (wrapCalls p source) := by rw [rewrite, h]
  obtain ⟨spans, perm, before⟩ := Span.exists_ordered id ((List.map_id _).symm ▸ apart)
    fun span hspan => (inText span hspan).1
  rw [List.map_id] at before
  have inOrder : Text.InOrder source spans := ⟨before, fun span h => inText span (perm.mem_iff.mp h)⟩
  have hsplice := Text.splice?_map wrap perm inOrder
  rw [← wrap_eq_stored]
  refine ⟨apart, inText, ⟨spans, perm, inOrder.before, hsplice, ?_, Text.mapAt_id inOrder⟩, ?_⟩
  · rw [hrewrite, wrapCalls, Text.splice_of_splice? hsplice]
  · intro hnone
    rw [hrewrite, wrapCalls, hnone, List.map_nil, Text.splice_nil]

end

namespace Module

def path : Path := .ofString "main.ts"

/-- A module with a component and two calls that start it. -/
def text : List Char :=
  "@Component() export class A \x7b\x7d\nbootstrapA(x).then(b => c(b));\nawait (bootstrapB(y));\n".toList

def program : Program := (read (.ofPath path) text).program

theorem outcome : (read (.ofPath path) text).isGaveUp = false ∧ program.WellPlaced ∧
    (callsOf program.body).length = 2 := by
  decide +kernel

end Module

theorem rewrite_of_wellPlaced_module : ∃ problems,
    read (.ofPath Module.path) Module.text = .tree Module.program problems ∧
    Module.program.WellPlaced ∧ (callsOf Module.program.body).length = 2 ∧
    (callsOf Module.program.body).Pairwise Span.Apart ∧
    (∀ span ∈ callsOf Module.program.body,
      span.start < span.stop ∧ span.stop ≤ Module.text.length) ∧
    (∃ spans : List Span, spans.Perm (callsOf Module.program.body) ∧ spans.Pairwise Span.Before ∧
      Text.splice? Module.text ((callsOf Module.program.body).map fun span =>
        ⟨span, wrap (Text.slice Module.text span)⟩) = some (Text.mapAt stored Module.text spans) ∧
      rewrite Module.path Module.text = .ok (Text.mapAt stored Module.text spans) ∧
      Text.mapAt id Module.text spans = Module.text) ∧
    (callsOf Module.program.body = [] → rewrite Module.path Module.text = .ok Module.text) := by
  obtain ⟨reads, placed, two⟩ := Module.outcome
  obtain ⟨problems, hread⟩ := Reading.eq_tree reads
  exact ⟨problems, hread, placed, two, rewrite_of_wellPlaced hread placed⟩

end LiveLoader.Bootstrap
