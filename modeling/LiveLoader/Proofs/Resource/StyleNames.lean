import LiveLoader.Proofs.Filter
import LiveLoader.Proofs.Text.Expansion
import LiveLoader.Resource.Host

/-!
# Names of styles

A style in a source has no file, so the transform knows it by the path of the source: the ending of the
path should give way to the extension of styles. The main statement says when it does. Only one of the
endings that sources have is looked for, and the extension is put in as a replacement text, so that its
dollar signs may come to something else.
-/

namespace LiveLoader.ResourceHost

open Text

/-- No other ending of sources ends with the one that is looked for. -/
theorem typedEnding_not_suffix {ending : List Char} (hending : ending ∈ SourceFile.frameworkEndings)
    (hne : ending ≠ typedEnding) (front : List Char) : ¬ typedEnding <:+ front ++ ending := by
  have hlength : ∀ e ∈ SourceFile.frameworkEndings, typedEnding.length ≤ e.length := by decide
  have hother : ∀ e ∈ SourceFile.frameworkEndings, e ≠ typedEnding → ¬ typedEnding <:+ e := by decide
  intro h
  exact hother ending hending hne
    (List.suffix_of_suffix_length_le h (List.suffix_append front ending) (hlength ending hending))

/-- The extension is put in as it is just if none of its dollar signs means anything. -/
theorem expand_extension_iff (ext : List Char) :
    Expansion.expand typedEnding ('.' :: ext) = '.' :: ext ↔ Expansion.Literal ext := by
  have hwhole : '$' ∉ typedEnding := by decide
  rw [Expansion.expand_eq_self_iff hwhole, Expansion.literal_cons]
  simp

section

variable {file : Path} {front ending : List Char}

theorem stylesheetId_eq (hfile : file.text = front ++ ending)
    (hending : ending ∈ SourceFile.frameworkEndings) (ext : List Char) :
    stylesheetId ⟨.style, none, file⟩ ext =
      (if ending = typedEnding then front ++ Expansion.expand typedEnding ('.' :: ext)
        else file.text) ++ "?direct".toList := by
  rw [stylesheetId, stylesheetName]
  dsimp only
  by_cases htyped : ending = typedEnding
  · rw [hfile, htyped, dropEnd?_append, if_pos rfl]
  · rw [hfile, dropEnd?_eq_none.mpr (typedEnding_not_suffix hending htyped front), if_neg htyped]

theorem stylesheetId_eq_iff (hfile : file.text = front ++ ending)
    (hending : ending ∈ SourceFile.frameworkEndings) (ext : List Char) :
    stylesheetId ⟨.style, none, file⟩ ext = front ++ '.' :: ext ++ "?direct".toList ↔
      ending = typedEnding ∧ Expansion.Literal ext ∨ ending = '.' :: ext := by
  rw [stylesheetId_eq hfile hending, List.append_cancel_right_eq]
  by_cases htyped : ending = typedEnding
  · have hplain : Expansion.Literal typedEnding := Expansion.literal_of_notMem (by decide)
    have hext : typedEnding = '.' :: ext → Expansion.Literal ext := by
      intro he
      rw [he] at hplain
      exact (Expansion.literal_cons.mp hplain).2
    rw [if_pos htyped, List.append_cancel_left_eq, expand_extension_iff, htyped]
    tauto
  · rw [if_neg htyped, hfile, List.append_cancel_left_eq]
    tauto

end

/-- What the transform is given for a style in a source of the framework is the path of the source with
the extension of styles in place of its ending, and the mark behind it, just if the ending is `.ts` and
no dollar sign of the extension means anything, or the extension is the ending already. -/
theorem transform_of_accepted {file : Path}
    (accepted : SourceFile.frameworkFilter.acceptPath file = true) {ext : List Char}
    (nonempty : ext ≠ []) :
    let context : ResourceContext := ⟨.style, none, file⟩
    let id := stylesheetId context ext
    (∀ (t : StylesheetTransform) (text : List Char),
      (configured (some ext) t).transform text context =
        match t text id with
        | .ok css => pure (some css)
        | .error e => ⟨some [], [.error e.message]⟩) ∧
    ∃ front ending, file.text = front ++ ending ∧ ending ∈ SourceFile.frameworkEndings ∧
      id = (if ending = typedEnding then front ++ Expansion.expand typedEnding ('.' :: ext)
        else file.text) ++ "?direct".toList ∧
      (id = front ++ '.' :: ext ++ "?direct".toList ↔
        ending = typedEnding ∧ Expansion.Literal ext ∨ ending = '.' :: ext) := by
  intro context id
  constructor
  · intro t text
    have hhost : configured (some ext) t = ⟨some ext, t⟩ := by simp [configured, nonempty]
    rw [hhost]
    rfl
  · obtain ⟨ending, hending, front, hfront⟩ := (SourceFile.acceptPath_iff rfl (by decide)).mp accepted
    exact ⟨front, ending, hfront.symm, hending, stylesheetId_eq hfront.symm hending ext,
      stylesheetId_eq_iff hfront.symm hending ext⟩

namespace Trial

/-- Gives the name that it is told for the style. -/
def naming : StylesheetTransform := fun _ id => .ok id

end Trial

/-- The doubled dollar sign of an extension comes to one. -/
theorem transform_of_accepted_doubled :
    SourceFile.frameworkFilter.acceptPath "/a.ts" = true ∧
    ((configured (some "s$$".toList) Trial.naming).transform [] ⟨.style, none, "/a.ts"⟩).value =
      some "/a.s$?direct".toList ∧
    ∃ front ending, "/a.ts".toList = front ++ ending ∧ ending ∈ SourceFile.frameworkEndings ∧
      "/a.s$?direct".toList ≠ front ++ '.' :: "s$$".toList ++ "?direct".toList := by
  have accepted : SourceFile.frameworkFilter.acceptPath "/a.ts" = true := by decide
  have nonempty : "s$$".toList ≠ [] := by decide
  obtain ⟨htransform, front, ending, htext, hending, -, hswap⟩ :=
    transform_of_accepted accepted nonempty
  have hid : stylesheetId ⟨.style, none, "/a.ts"⟩ "s$$".toList = "/a.s$?direct".toList := by decide
  have hmeant : ¬ Expansion.Literal "s$$".toList := by
    rw [← expand_extension_iff]
    decide
  have hother : '.' :: "s$$".toList ∉ SourceFile.frameworkEndings := by decide
  rw [hid] at htransform hswap
  refine ⟨accepted, congrArg Logged.value (htransform Trial.naming []), front, ending, htext, hending,
    fun he => ?_⟩
  rcases hswap.mp he with ⟨-, hliteral⟩ | hsame
  · exact hmeant hliteral
  · exact hother (hsame ▸ hending)

/-- The transform is told the path of a module with its own ending, and what a reference in an extension
comes to. -/
theorem ending_is_kept_or_expanded :
    SourceFile.frameworkFilter.acceptPath "/a.mts" = true ∧
    ((configured (some "css".toList) Trial.naming).transform [] ⟨.style, none, "/a.mts"⟩).value =
      some "/a.mts?direct".toList ∧
    SourceFile.frameworkFilter.acceptPath "/a.ts" = true ∧
    ((configured (some "$0".toList) Trial.naming).transform [] ⟨.style, none, "/a.ts"⟩).value =
      some "/a..ts?direct".toList := by
  decide

end LiveLoader.ResourceHost
