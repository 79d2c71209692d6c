import LiveLoader.Bootstrap
import LiveLoader.Error
import LiveLoader.Text.Shown

/-!
# Transformers

A transformer rewrites the text of a file and may fail. A program runs some before it emits a file,
on the source text, and some after it, on the emitted text.
-/

namespace LiveLoader

structure Transformer where
  name : String
  apply : Path → List Char → Result (List Char)

namespace Transformer

/-- The transformer that keeps the started application. -/
def bootstrap : Transformer := ⟨"replace-bootstrap", Bootstrap.rewrite⟩

/-- Runs the transformers in order; the first that fails ends the run. -/
def applyAll (ts : List Transformer) (path : Path) (text : List Char) : Result (List Char) :=
  ts.foldlM (fun text t => t.apply path text) text

@[simp] theorem applyAll_nil (path : Path) (text : List Char) : applyAll [] path text = .ok text :=
  rfl

theorem applyAll_append (ts us : List Transformer) (path : Path) (text : List Char) :
    applyAll (ts ++ us) path text = applyAll ts path text >>= applyAll us path := by
  simp only [applyAll, List.foldlM_append]; rfl

end Transformer

structure Transformers where
  before : List Transformer := []
  after : List Transformer := []

namespace Transformers

/-- The transformers of both, in each phase those of `s` first. -/
def merge (s t : Transformers) : Transformers := ⟨s.before ++ t.before, s.after ++ t.after⟩

def applyBefore (s : Transformers) (path : Path) (text : List Char) : Result (List Char) :=
  Transformer.applyAll s.before path text

def applyAfter (s : Transformers) (path : Path) (text : List Char) : Result (List Char) :=
  Transformer.applyAll s.after path text

/-- The description of a set: the names of its transformers. -/
def describe (s : Transformers) : String :=
  let names (ts : List Transformer) : List Char :=
    Text.Shown.list (ts.map fun t => Text.Shown.text t.name.toList)
  String.ofList
    ("EmitTransformers \x7b before: ".toList ++ names s.before ++ ", after: ".toList
      ++ names s.after ++ " \x7d".toList)

end Transformers

end LiveLoader
