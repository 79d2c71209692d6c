import LiveLoader.Syntax.Node

/-!
# Splicing

Parts of a text are replaced all at once. The replacements may be given in any order; they are made
from the back of the text to the front, so that the places of those to come stay where they are.
-/

namespace LiveLoader.Text

open Syntax (Span)

structure Replacement where
  span : Span
  text : List Char
  deriving DecidableEq, Repr

namespace Replacement

def apply (s : List Char) (r : Replacement) : List Char :=
  s.take r.span.start ++ r.text ++ s.drop r.span.stop

/-- `r` stands at least as far back as `q`. -/
def notBefore (r q : Replacement) : Bool := q.span.start ≤ r.span.start

end Replacement

def splice (s : List Char) (rs : List Replacement) : List Char :=
  (rs.mergeSort Replacement.notBefore).foldl Replacement.apply s

@[simp] theorem splice_nil (s : List Char) : splice s [] = s := by simp [splice]

def slice (s : List Char) (span : Span) : List Char :=
  (s.drop span.start).take (span.stop - span.start)

end LiveLoader.Text
