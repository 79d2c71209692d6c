import LiveLoader.Proofs.Resource.Results
import LiveLoader.Proofs.Text.Literal

/-!
# Inlined texts in their literals

Whatever characters a template or a style has, the literal that it is inlined in is one string and
denotes just this text. So no two templates, and no two lists of styles, are inlined as the same.
-/

namespace LiveLoader.Resource

open Text Text.Quoted

/-- The text that a property `template` in the form of a replacement holds. -/
def heldTemplate? (property : List Char) : Option (List Char) := do
  let rest ← property.dropPrefix? "template: ".toList
  let (text, rest) ← decode? rest
  if rest = [] then some text else none

theorem heldTemplate?_templateText (template : List Char) :
    heldTemplate? (templateText template) = some template := by
  have hrest : (templateText template).dropPrefix? "template: ".toList = some (encode template) :=
    List.dropPrefix?_append_of_beq _ (beq_self_eq_true "template: ".toList)
  have hread : decode? (encode template) = some (template, []) := by
    simpa using decode?_encode template []
  simp only [heldTemplate?, hrest, hread, Option.bind_eq_bind, Option.bind_some, if_true]

theorem injective_of_read (read : β → Option α) {write : α → β}
    (h : ∀ a, read (write a) = some a) : Function.Injective write := by
  intro a b hab
  have hread : read (write a) = read (write b) := congrArg read hab
  rwa [h, h, Option.some.injEq] at hread

/-- What stands in the place of a property denotes, read as a script, what the property stands for: the
text of the template, or the styles as the host transforms them. -/
def Denotes (host : ResourceHost) (fs : FileSystem) (component : Path) (p : MetadataProperty)
    (text : List Char) : Prop :=
  match p.kind with
  | .templateUrl => ∃ url template, p.values.head? = some url ∧
      fs.readText (fileOf component url) = .ok template ∧ heldTemplate? text = some template
  | .styleUrls => ∃ styles, List.Forall₂ (StyleOf host fs component) p.values styles ∧
      listedStyles? text = some styles
  | .inlineStyles => listedStyles? text = some (p.values.map (styleText host component none))

theorem denotes_of_replaces {host : ResourceHost} {fs : FileSystem} {component : Path}
    {p : MetadataProperty} {r : Replacement} (h : Replaces host fs component p r) :
    Denotes host fs component p r.text := by
  cases h with
  | template hread => exact ⟨_, _, rfl, hread, heldTemplate?_templateText _⟩
  | files styles => exact ⟨_, styles, listedStyles?_stylesText _⟩
  | texts => exact listedStyles?_stylesText _

/-- An escaped text is what four replacements in turn make of it. It has no line breaks, each quote in it
has an odd number of backslashes in front, and it ends in an even number. So between quotes it is one
string, which denotes the text. Hence the properties that are written for a template and for styles
denote just these, also when they were inlined from files. -/
theorem literals_denote_texts :
    (∀ s : List Char,
      escape s = escapes.foldl (fun t p => respell p.1 ['\\', p.2] t) s ∧
      '\n' ∉ escape s ∧ '\r' ∉ escape s ∧
      (∀ front back, escape s = front ++ '\'' :: back → Odd (slashes front)) ∧
      Even (slashes (escape s)) ∧
      decode? (encode s) = some (s, []) ∧
      ∀ rest, Syntax.lexeme (encode s ++ rest) = (.string (s.map Char.toNat), true, rest)) ∧
    Function.Injective encode ∧
    (∀ template, heldTemplate? (templateText template) = some template) ∧
    Function.Injective templateText ∧
    (∀ styles, listedStyles? (stylesText styles) = some styles) ∧
    Function.Injective stylesText ∧
    ∀ (digest : List Char → String) (host : ResourceHost) (fs : FileSystem) (component : Path)
      (ps : List MetadataProperty) (inlined : Inlined),
      Build.result (inlineAll digest host fs component ps) = .ok inlined →
      ∀ r ∈ inlined.replacements, ∃ p ∈ ps, r.span = p.span ∧ Denotes host fs component p r.text := by
  have hread : ∀ s, decode? (encode s) = some (s, []) := fun s => by
    simpa using decode?_encode s []
  refine ⟨fun s => ⟨escape_eq_foldl s, notMem_escape (by decide) s, notMem_escape (by decide) s,
      fun _ _ => odd_slashes_of_escape_eq, even_slashes_escape s, hread s, lexeme_encode s⟩,
    injective_of_read (fun t => (decode? t).map Prod.fst) fun s => by simp [hread],
    heldTemplate?_templateText, injective_of_read heldTemplate? heldTemplate?_templateText,
    listedStyles?_stylesText, injective_of_read listedStyles? listedStyles?_stylesText, ?_⟩
  intro digest host fs component ps inlined h r hr
  rw [replacements_inlineAll h] at hr
  obtain ⟨p, hp, hr⟩ := List.mem_filterMap.mp hr
  exact ⟨p, hp, span_of_replacement? hr, denotes_of_replaces (replaces_of_mem h hp hr)⟩

theorem literals_denote_texts_card : ∃ inlined, Card.inlining = .ok inlined ∧
    inlined.replacements.map Replacement.text = Card.texts ∧
    ∀ r ∈ inlined.replacements, ∃ p ∈ Card.properties,
      r.span = p.span ∧ Denotes Card.host Card.files Card.component p r.text := by
  obtain ⟨inlined, h, texts⟩ := Card.exists_inlined
  obtain ⟨-, -, -, -, -, -, denotes⟩ := literals_denote_texts
  exact ⟨inlined, h, texts, denotes _ _ _ _ _ inlined h⟩

end LiveLoader.Resource
