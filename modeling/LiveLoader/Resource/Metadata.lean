import LiveLoader.Syntax.Escape
import LiveLoader.Syntax.Parser

/-!
# Component metadata

A class is a component by a decorator that describes it with an object literal. Some properties of
that object name files or hold styles; those with literal values are collected here.
-/

namespace LiveLoader.Resource

open Syntax

inductive MetadataKind where
  | templateUrl | styleUrls | inlineStyles
  deriving DecidableEq, Repr

/-- A property of the metadata with the texts that it lists. -/
structure MetadataProperty where
  kind : MetadataKind
  span : Span
  values : List (List Char)
  deriving DecidableEq, Repr

def decoratorName : String := "Component"

def MetadataKind.ofName? : String → Option MetadataKind
  | "templateUrl" => some .templateUrl
  | "styleUrl" | "styleUrls" => some .styleUrls
  | "styles" => some .inlineStyles
  | _ => none

/-- The text of a key that is a name or a string, also of a string in brackets. -/
def keyText? : Node → Option String
  | .mk (.identifier name) _ [] => some name
  | .mk (.string us) _ [] | .mk .computed _ [.mk (.string us) _ []] => some (textOfUnits us)
  | _ => none

/-- The text of a string, or of a template without substitutions. -/
def literalText? : Node → Option (List Char)
  | .mk (.string us) _ [] => some (textOfUnits us).toList
  | .mk (.template [part]) _ [] =>
    some (match part.cooked with
      | some us => (textOfUnits us).toList
      | none => part.raw.toList)
  | _ => none

def literalTexts? : Node → Option (List (List Char))
  | .mk .array _ items => items.mapM literalText?
  | n => (literalText? n).map ([·])

/-- The property of an entry of the metadata object; a list without texts says nothing. -/
def MetadataProperty.ofEntry? : Node → Option MetadataProperty
  | .mk (.property _) span [key, value] => do
    let kind ← (keyText? key).bind MetadataKind.ofName?
    match ← literalTexts? value with
    | [] => none
    | v :: vs => return ⟨kind, span, v :: vs⟩
  | _ => none

/-- The entries of the object that a component decorator is called with. -/
def metadataEntries : Node → List Node
  | .mk .decorator _ [e] =>
    match e.form, e.parts with
    | .call _ _, callee :: .mk .object _ entries :: _ =>
      if callee.nameOf? = some decoratorName then entries else []
    | _, _ => []
  | _ => []

def classProperties : Node → List MetadataProperty
  | .mk (.classDef _) _ (decorators :: _) =>
    decorators.children.flatMap fun d => (metadataEntries d).filterMap MetadataProperty.ofEntry?
  | _ => []

/-- The properties of all classes of a program, each class before those inside it. -/
def properties (p : Program) : List MetadataProperty :=
  (Node.nodesOf p.body).flatMap classProperties

end LiveLoader.Resource
