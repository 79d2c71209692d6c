import Mathlib.Data.List.Basic
import LiveLoader.Proofs.Bootstrap.Calls
import LiveLoader.Proofs.Syntax.Siblings

/-!
# The statements whose call is wrapped

The walk looks for nothing inside a statement that starts the application. So the calls that are
wrapped are those of the statements which stand in no other such statement, whatever part of it they
stand in: the arguments of its call, or a callback that is passed to a step of its promise.
-/

namespace LiveLoader.Bootstrap

open Syntax Forest

/-- An expression comes down to a call which starts the application: it is the call, or waits for it,
or is a step of its promise. -/
inductive ComesDownTo : Node → Node → Prop where
  | call {n : Node} : n.StartsApplication → ComesDownTo n n
  | await {span : Span} {e call : Node} : ComesDownTo e call → ComesDownTo (.mk .await span [e]) call
  | paren {span : Span} {e call : Node} : ComesDownTo e call → ComesDownTo (.mk .paren span [e]) call
  | step {optional pure optional' : Bool} {span span' : Span} {name : String} {object call : Node}
      {args : List Node} : name ∈ ["then", "catch", "finally"] → ComesDownTo object call →
    ComesDownTo
      (.mk (.call optional pure) span (.mk (.member name optional') span' [object] :: args)) call

/-- A statement of a single expression that comes down to a call. -/
def StartsWith (n call : Node) : Prop :=
  ∃ span e, n = .mk .expressionStatement span [e] ∧ ComesDownTo e call

/-- The statement at an address starts the application with a call. -/
def StartsAt (ns : List Node) (a : List Nat) (call : Node) : Prop :=
  ∃ n, get? Node.children ns a = some n ∧ StartsWith n call

/-- The statement at an address does so, and none that it stands in does. -/
def OutermostAt (ns : List Node) (a : List Nat) (call : Node) : Prop :=
  StartsAt ns a call ∧ ∀ b, b <+: a → b ≠ a → ¬ ∃ call', StartsAt ns b call'

theorem startsApplication_iff {callee : Node} {optional pure : Bool} {span : Span}
    {args : List Node} : startsApplication callee = true ↔
      (Node.mk (.call optional pure) span (callee :: args)).StartsApplication := by
  constructor
  · intro h
    obtain ⟨name, hname, hprefix⟩ := (Option.any_eq_true _ _).mp h
    exact ⟨optional, pure, span, callee, args, name, rfl, hname, List.isPrefixOf_iff_prefix.mp hprefix⟩
  · rintro ⟨_, _, _, _, _, name, heq, hname, hprefix⟩
    cases heq
    rw [startsApplication, hname]
    exact List.isPrefixOf_iff_prefix.mpr hprefix

/-- No step of a promise is taken for a call which starts the application. -/
theorem not_startsApplication_member {name : String} (h : name ∈ promiseSteps) (optional : Bool)
    (span : Span) (parts : List Node) :
    startsApplication (.mk (.member name optional) span parts) = false := by
  have hsteps : ∀ step ∈ promiseSteps, OutlineNode.isBootstrapName step = false := by decide
  exact hsteps name h

theorem entryCall?_iff {e call : Node} : entryCall? e = some call ↔ ComesDownTo e call := by
  constructor
  · intro h
    fun_induction entryCall? e with
    | case1 optional pure span callee args starts =>
      cases h
      exact .call (startsApplication_iff.mp starts)
    | case2 optional pure span args name opt mspan object step _ ih => exact .step step (ih h)
    | case3 => cases h
    | case4 => cases h
    | case5 span e ih => exact .await (ih h)
    | case6 span e ih => exact .paren (ih h)
    | case7 => cases h
  · intro h
    induction h with
    | call starts =>
      obtain ⟨optional, pure, span, callee, args, name, rfl, -⟩ := id starts
      rw [entryCall?.eq_def]
      simp only [startsApplication_iff.mpr starts, if_true]
    | await _ ih => rw [entryCall?, ih]
    | paren _ ih => rw [entryCall?, ih]
    | step hname _ ih =>
      rw [entryCall?, if_neg (by rw [not_startsApplication_member hname]; exact Bool.false_ne_true)]
      exact (if_pos hname).trans ih

theorem startingCall?_iff {n call : Node} : startingCall? n = some call ↔ StartsWith n call := by
  constructor
  · intro h
    obtain ⟨span, e, hn, he⟩ := startingCall?_eq_some h
    exact ⟨span, e, hn, entryCall?_iff.mp he⟩
  · rintro ⟨span, e, rfl, h⟩
    exact entryCall?_iff.mpr h

theorem startingCall?_eq_none {n : Node} : startingCall? n = none ↔ ¬ ∃ call, StartsWith n call := by
  simp only [Option.eq_none_iff_forall_ne_some, ne_eq, startingCall?_iff, not_exists]

/-- What is found in each tree of a forest, with the number of the tree in front of the addresses. -/
def numbered (found : List (List (List Nat × Node))) : List (List Nat × Node) :=
  found.zipIdx.flatMap fun (inTree, i) => inTree.map fun (a, call) => (i :: a, call)

/-- The calls that are wrapped, with the addresses of their statements below the node. -/
def wrapped : Node → List (List Nat × Node) :=
  Node.fold fun n parts => match startingCall? n with
    | some call => [([], call)]
    | none => numbered parts

theorem wrapped_eq (n : Node) : wrapped n = match startingCall? n with
    | some call => [([], call)]
    | none => numbered (n.children.map wrapped) := by
  cases n with
  | mk form span children => rw [wrapped, Node.fold_mk, Node.children_mk]

theorem map_span_numbered (found : List (List (List Nat × Node))) :
    (numbered found).map (fun f => f.2.span) = found.flatMap fun inTree =>
      inTree.map fun f => f.2.span := by
  simp only [numbered, List.map_flatMap, List.map_map, Function.comp_def]
  conv_rhs => rw [← List.zipIdx_map_fst 0 found, List.flatMap_map]

theorem mem_numbered {found : List (List (List Nat × Node))} {a : List Nat} {call : Node} :
    (a, call) ∈ numbered found ↔
      ∃ i b inTree, a = i :: b ∧ found[i]? = some inTree ∧ (b, call) ∈ inTree := by
  simp only [numbered, List.mem_flatMap, List.mem_map, Prod.exists, List.mem_zipIdx_iff_getElem?]
  grind

theorem numbered_sorted {found : List (List (List Nat × Node))}
    (each : ∀ inTree ∈ found, inTree.Pairwise fun f g => f.1 < g.1) :
    (numbered found).Pairwise fun f g => f.1 < g.1 := by
  rw [numbered, List.pairwise_flatMap]
  constructor
  · intro (inTree, i) hmem
    rw [List.pairwise_map]
    refine (each inTree (List.fst_mem_of_mem_zipIdx hmem)).imp fun h => ?_
    exact List.cons_lt_cons_iff.mpr (.inr ⟨rfl, h⟩)
  · have hnumbers : found.zipIdx.Pairwise fun x y => x.2 < y.2 := by
      rw [← List.pairwise_map, List.zipIdx_map_snd]
      exact List.pairwise_lt_range'
    refine hnumbers.imp fun {x y} h => ?_
    intro f hf g hg
    obtain ⟨f, -, rfl⟩ := List.mem_map.mp hf
    obtain ⟨g, -, rfl⟩ := List.mem_map.mp hg
    exact List.cons_lt_cons_iff.mpr (.inl h)

section

variable {ns : List Node} {i : Nat} {a : List Nat} {call : Node}

theorem not_startsAt_nil : ¬ ∃ call, StartsAt ns [] call := by
  rintro ⟨call, n, hn, -⟩
  exact ne_nil_of_get? hn rfl

theorem startsAt_cons : StartsAt ns (i :: a) call ↔ ∃ root, ns[i]? = some root ∧
    (a = [] ∧ StartsWith root call ∨ StartsAt root.children a call) := by
  constructor
  · rintro ⟨n, hn, starts⟩
    obtain ⟨root, hroot, ⟨ha, rfl⟩ | hbelow⟩ := exists_root_of_get? hn
    · exact ⟨root, hroot, .inl ⟨ha, starts⟩⟩
    · exact ⟨root, hroot, .inr ⟨n, hbelow, starts⟩⟩
  · rintro ⟨root, hroot, ⟨ha, starts⟩ | ⟨n, hn, starts⟩⟩
    · exact ⟨root, get?_of_root hroot (.inl ⟨ha, rfl⟩), starts⟩
    · exact ⟨n, get?_of_root hroot (.inr hn), starts⟩

/-- An outermost statement is a root, or stands below a root that is none. -/
theorem outermostAt_cons : OutermostAt ns (i :: a) call ↔ ∃ root, ns[i]? = some root ∧
    (a = [] ∧ startingCall? root = some call ∨
      startingCall? root = none ∧ OutermostAt root.children a call) := by
  constructor
  · rintro ⟨starts, outermost⟩
    obtain ⟨root, hroot, ⟨ha, starts⟩ | starts⟩ := startsAt_cons.mp starts
    · exact ⟨root, hroot, .inl ⟨ha, startingCall?_iff.mpr starts⟩⟩
    · refine ⟨root, hroot, .inr ⟨startingCall?_eq_none.mpr ?_, starts, ?_⟩⟩
      · rintro ⟨call', rootStarts⟩
        have ha : a ≠ [] := by
          rintro rfl
          exact not_startsAt_nil ⟨call, starts⟩
        refine outermost [i] (List.cons_prefix_cons.mpr ⟨rfl, List.nil_prefix⟩) ?_
          ⟨call', startsAt_cons.mpr ⟨root, hroot, .inl ⟨rfl, rootStarts⟩⟩⟩
        intro heq
        exact ha (List.cons.inj heq).2.symm
      · rintro b hb hne ⟨call', starts'⟩
        refine outermost (i :: b) (List.cons_prefix_cons.mpr ⟨rfl, hb⟩) ?_
          ⟨call', startsAt_cons.mpr ⟨root, hroot, .inr starts'⟩⟩
        intro heq
        exact hne (List.cons.inj heq).2
  · rintro ⟨root, hroot, h⟩
    have above : ∀ b, b <+: i :: a → b ≠ i :: a → (∃ call', StartsAt ns b call') →
        ∃ c, b = i :: c ∧ c <+: a ∧ c ≠ a := by
      intro b hb hne starts
      cases b with
      | nil => exact absurd starts not_startsAt_nil
      | cons j c =>
        obtain ⟨rfl, hc⟩ := List.cons_prefix_cons.mp hb
        refine ⟨c, rfl, hc, ?_⟩
        rintro rfl
        exact hne rfl
    rcases h with ⟨rfl, hstarts⟩ | ⟨hnone, starts, outermost⟩
    · refine ⟨startsAt_cons.mpr ⟨root, hroot, .inl ⟨rfl, startingCall?_iff.mp hstarts⟩⟩, ?_⟩
      intro b hb hne starts
      obtain ⟨c, -, hc, hc'⟩ := above b hb hne starts
      exact hc' (List.prefix_nil.mp hc)
    · refine ⟨startsAt_cons.mpr ⟨root, hroot, .inr starts⟩, ?_⟩
      intro b hb hne starts'
      obtain ⟨c, rfl, hc, hc'⟩ := above b hb hne starts'
      obtain ⟨call', starts'⟩ := starts'
      obtain ⟨root', hroot', h⟩ := startsAt_cons.mp starts'
      obtain rfl := Option.some.inj (hroot.symm.trans hroot')
      rcases h with ⟨-, h⟩ | h
      · exact startingCall?_eq_none.mp hnone ⟨call', h⟩
      · exact outermost c hc hc' ⟨call', h⟩

end

theorem mem_numbered_wrapped {ns : List Node} {a : List Nat} {call : Node}
    (each : ∀ n ∈ ns, ∀ b, (b, call) ∈ wrapped n ↔ b = [] ∧ startingCall? n = some call ∨
      startingCall? n = none ∧ OutermostAt n.children b call) :
    (a, call) ∈ numbered (ns.map wrapped) ↔ OutermostAt ns a call := by
  rw [mem_numbered]
  constructor
  · rintro ⟨i, b, inTree, rfl, hi, hb⟩
    rw [List.getElem?_map, Option.map_eq_some_iff] at hi
    obtain ⟨n, hn, rfl⟩ := hi
    exact outermostAt_cons.mpr ⟨n, hn, (each n (List.mem_of_getElem? hn) b).mp hb⟩
  · intro h
    cases a with
    | nil => exact absurd ⟨call, h.1⟩ not_startsAt_nil
    | cons i b =>
      obtain ⟨n, hn, hb⟩ := outermostAt_cons.mp h
      refine ⟨i, b, wrapped n, rfl, ?_, (each n (List.mem_of_getElem? hn) b).mpr hb⟩
      rw [List.getElem?_map, hn, Option.map_some]

theorem mem_wrapped {n : Node} {a : List Nat} {call : Node} :
    (a, call) ∈ wrapped n ↔ a = [] ∧ startingCall? n = some call ∨
      startingCall? n = none ∧ OutermostAt n.children a call := by
  induction n generalizing a with
  | mk form span children ih =>
    rw [wrapped_eq]
    cases hstarts : startingCall? (.mk form span children) with
    | some call' =>
      simp only [List.mem_singleton, Prod.mk.injEq, Option.some.injEq, reduceCtorEq, false_and,
        or_false, eq_comm]
    | none =>
      simp only [reduceCtorEq, and_false, false_or, true_and]
      exact mem_numbered_wrapped fun n hn b => ih n hn

theorem wrapped_sorted (n : Node) : (wrapped n).Pairwise fun f g => f.1 < g.1 := by
  induction n with
  | mk form span children ih =>
    rw [wrapped_eq]
    split
    · exact List.pairwise_singleton _ _
    · refine numbered_sorted fun inTree hmem => ?_
      obtain ⟨n, hn, rfl⟩ := List.mem_map.mp hmem
      exact ih n hn

theorem calls_eq_wrapped (n : Node) : calls n = (wrapped n).map fun f => f.2.span := by
  induction n with
  | mk form span children ih =>
    rw [calls_eq, wrapped_eq]
    cases startingCall? (.mk form span children) with
    | some call => rfl
    | none =>
      simp only [map_span_numbered, List.flatMap_map, Node.children_mk]
      exact List.flatMap_congr ih

section

variable {path : Path} {source : List Char} {p : Program} {problems : Nat}

/-- The calls that are wrapped are those of the statements which stand in no other statement that
starts the application. They are found as the statements come in the tree. -/
theorem rewrite_wraps_outermost (h : read (.ofPath path) source = .tree p problems) :
    ∃ found : List (List Nat × Node),
      rewrite path source = .ok (Text.splice source (found.map fun (_, call) =>
        ⟨call.span, wrap (Text.slice source call.span)⟩)) ∧
      (found.Pairwise fun f g => f.1 < g.1) ∧
      ∀ a call, (a, call) ∈ found ↔ OutermostAt p.body a call := by
  refine ⟨numbered (p.body.map wrapped), ?_, ?_, ?_⟩
  · have hcalls : callsOf p.body = (numbered (p.body.map wrapped)).map fun f => f.2.span := by
      rw [callsOf_eq_flatMap, map_span_numbered, List.flatMap_map]
      exact List.flatMap_congr fun n _ => calls_eq_wrapped n
    simp only [rewrite, h, wrapCalls, hcalls, List.map_map]
    rfl
  · refine numbered_sorted fun inTree hmem => ?_
    obtain ⟨n, -, rfl⟩ := List.mem_map.mp hmem
    exact wrapped_sorted n
  · intro a call
    exact mem_numbered_wrapped fun n _ b => mem_wrapped

end

namespace Trial

/-- The name of a module. -/
def main : Path := .ofString "main.ts"

/-- A callback of a promise starts a second application. -/
def chained : List Char := "bootstrapA().then(() => \x7b bootstrapB(); \x7d);".toList

def program : Program := (read (.ofPath main) chained).program

/-- The first call is found, and the second one stands at an address of its own. -/
theorem outcome : (read (.ofPath main) chained).isGaveUp = false ∧
    (numbered (program.body.map wrapped)).map (fun f => (f.1, f.2.span)) = [([0], ⟨0, 12⟩)] ∧
    callsOf program.body = [⟨0, 12⟩] ∧
    ((get? Node.children program.body [0, 0, 1, 1, 0]).bind startingCall?).map Node.span =
      some ⟨26, 38⟩ := by
  decide +kernel

theorem read_chained : ∃ problems, read (.ofPath main) chained = .tree program problems :=
  Reading.eq_tree outcome.1

end Trial

theorem rewrite_wraps_outermost_trial : ∃ problems call,
    read (.ofPath Trial.main) Trial.chained = .tree Trial.program problems ∧
    rewrite Trial.main Trial.chained = .ok (Text.splice Trial.chained
      [⟨⟨0, 12⟩, wrap (Text.slice Trial.chained ⟨0, 12⟩)⟩]) ∧
    call.span = ⟨0, 12⟩ ∧ ∀ a c, OutermostAt Trial.program.body a c ↔ a = [0] ∧ c = call := by
  obtain ⟨problems, hread⟩ := Trial.read_chained
  obtain ⟨found, rewrites, sorted, members⟩ := rewrite_wraps_outermost hread
  obtain ⟨⟨a, call⟩, hlist, heq⟩ := List.map_eq_singleton_iff.mp Trial.outcome.2.1
  obtain ⟨rfl, hspan⟩ := Prod.mk.inj heq
  have only (b : List Nat) (c : Node) : (b, c) ∈ found ↔ b = [0] ∧ c = call := by
    rw [members, ← mem_numbered_wrapped fun n _ b => mem_wrapped, hlist, List.mem_singleton,
      Prod.mk.injEq]
  obtain rfl : found = [([0], call)] := by
    match found, sorted, only with
    | [], _, only => exact absurd ((only [0] call).mpr ⟨rfl, rfl⟩) List.not_mem_nil
    | [(b, c)], _, only =>
      obtain ⟨rfl, rfl⟩ := (only b c).mp List.mem_cons_self
      rfl
    | (b, c) :: (b', c') :: _, sorted, only =>
      have hlt : b < b' := List.rel_of_pairwise_cons sorted List.mem_cons_self
      obtain ⟨rfl, -⟩ := (only b c).mp List.mem_cons_self
      obtain ⟨rfl, -⟩ := (only b' c').mp (List.mem_cons_of_mem _ List.mem_cons_self)
      exact absurd hlt (List.lt_irrefl [0])
  exact ⟨problems, call, hread, by simpa [hspan] using rewrites, hspan,
    fun b c => (members b c).symm.trans (only b c)⟩

/-- The call in the callback stands in no call that is wrapped, and is not wrapped. -/
theorem call_in_callback_is_not_wrapped : ∃ p problems a call,
    read (.ofPath Trial.main) Trial.chained = .tree p problems ∧ StartsAt p.body a call ∧
    Text.slice Trial.chained call.span = "bootstrapB()".toList ∧
    (∀ span ∈ callsOf p.body, ¬ call.span.Within span) ∧
    rewrite Trial.main Trial.chained = .ok ("Promise.resolve(bootstrapA()).then((ref) => " ++
      "\x7b window.ngRef = ref; return ref; \x7d).then(() => \x7b bootstrapB(); \x7d);").toList := by
  obtain ⟨problems, hread⟩ := Trial.read_chained
  obtain ⟨-, -, hcalls, hcall⟩ := Trial.outcome
  obtain ⟨call, hcall, hspan⟩ := Option.map_eq_some_iff.mp hcall
  obtain ⟨n, hn, hstarts⟩ := Option.bind_eq_some_iff.mp hcall
  refine ⟨_, problems, _, call, hread, ⟨n, hn, startingCall?_iff.mp hstarts⟩, ?_, ?_, ?_⟩
  · rw [hspan]
    decide
  · rw [hcalls, hspan]
    decide
  · simp only [rewrite, hread, wrapCalls, hcalls]
    decide +kernel

end LiveLoader.Bootstrap
