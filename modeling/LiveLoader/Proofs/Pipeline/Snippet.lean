import LiveLoader.Proofs.Bootstrap.Calls
import LiveLoader.Proofs.Pipeline.Reload

/-!
# The snippet of code that starts the application

The rewriting of source texts and their classification look for calls in different ways. The main
statement says that they agree on a text in which a call is wrapped: code that stores the application
it starts is loaded with the snippet that disposes of it.
-/

namespace LiveLoader

open PlainCompiler (compilerWith)

namespace Instrument

/-- The snippets differ in the tenth character from the end. -/
def mark : Classification → Char
  | .entryBootstrap => ';'
  | .frameworkDecorated => '\x7d'
  | .plainModule => 'c'

theorem getElem?_snippet (c : Classification) :
    (snippet c).toList.reverse[9]? = some (mark c) := by
  cases c <;> decide +kernel

theorem eq_of_snippet_suffix {c d : Classification}
    (h : (snippet c).toList <:+ (snippet d).toList) : c = d := by
  obtain ⟨rest, hrest⟩ := List.reverse_prefix.mpr h
  have hmark : mark d = mark c := by
    rw [← Option.some_inj, ← getElem?_snippet, ← getElem?_snippet, ← hrest]
    exact List.getElem?_append_left (List.getElem?_eq_some_iff.mp (getElem?_snippet c)).1
  cases c <;> cases d <;> first | rfl | simp [mark] at hmark

/-- Code ends with the snippet that was added to it, and with no other. -/
theorem snippet_suffix_instrument (code : List Char) (c d : Classification) :
    (snippet d).toList <:+ instrument code c ↔ d = c := by
  have own : (snippet c).toList <:+ instrument code c := List.suffix_append _ _
  constructor
  · intro other
    rcases List.suffix_or_suffix_of_suffix other own with h | h
    · exact eq_of_snippet_suffix h
    · exact (eq_of_snippet_suffix h).symm
  · rintro rfl
    exact own

end Instrument

namespace Pipeline

/-- A program with a call to wrap is classified as one that starts the application. So when a source
of the framework is loaded in which the rewriting wraps a call, and the text that it was analyzed in is
the one that was read, with no resource inlined, then the rewritten code is loaded with the snippet
that disposes of the application, and with no other. -/
theorem wrapped_code_has_entry_snippet :
    (∀ program : Syntax.Program, Bootstrap.callsOf program.body ≠ [] →
      program.outline.classify = .entryBootstrap) ∧
    ∀ (digest : List Char → String) (p : Pipeline PlainCompiler.Program) (l : Load Unit)
      (text : List Char) (source : PlainCompiler.Source) (loaded : Loaded),
      let s := (afterLoad (compilerWith digest) p l).session
      p.dispatch l.path = some .framework →
      l.world.files.readText l.path = .ok text →
      (load (compilerWith digest) p l.path l.world).1 = .ok (some loaded) →
      s.program.source? l.place = some source →
      source.text = text → (∀ parts, source.resources = .inlined parts → parts.replacements = []) →
      Bootstrap.callsOf (Syntax.read (.ofPath l.place) source.inlinedText).program.body ≠ [] →
      ∃ rewritten code, Bootstrap.rewrite l.place source.inlinedText = .ok rewritten ∧
        transpile l.place rewritten = .ok code ∧
        loaded.contents = instrument code .entryBootstrap ∧
        ∀ c, (Instrument.snippet c).toList <:+ loaded.contents ↔ c = .entryBootstrap := by
  refine ⟨fun _ => Bootstrap.classify_of_callsOf_ne_nil, ?_⟩
  intro digest p l text source loaded s framework readable hload hsource htext hplain wraps
  rw [load_eq_answer digest framework readable] at hload
  obtain ⟨x, hx, hloaded⟩ := map_eq_ok.mp (mapError_eq_ok.mp hload)
  obtain ⟨source', rewritten, hsource', hrewritten, hcode⟩ := PlainCompiler.emit_eq_ok digest hx
  obtain rfl : source = source' := Option.some.inj (hsource.symm.trans hsource')
  have hinlined : source.inlinedText = text := by
    unfold PlainCompiler.Source.inlinedText
    split
    case h_1 parts hparts => rw [hplain parts hparts, Text.splice_nil, htext]
    case h_2 => exact htext
  rw [hinlined] at wraps
  have hclass : Classification.ofSource (.ofPath l.place) text = .entryBootstrap :=
    Bootstrap.classify_of_callsOf_ne_nil wraps
  have hcontents : loaded.contents = instrument x.code .entryBootstrap := by
    obtain rfl := Option.some.inj hloaded
    rw [← hclass]
    rfl
  refine ⟨rewritten, x.code, hrewritten, hcode, hcontents, fun c => ?_⟩
  rw [hcontents]
  exact Instrument.snippet_suffix_instrument x.code .entryBootstrap c

namespace Trial

def entry : Load Unit := ⟨"/a.ts", world "bootstrapA();"⟩

/-- The text of a source, if it has no resources. -/
def plainText? (s : PlainCompiler.Source) : Option (List Char) :=
  match s.resources with
  | .none => some s.text
  | _ => none

end Trial

theorem wrapped_code_has_entry_snippet_trial :
    ∃ rewritten code loaded,
      (load PlainCompiler.compiler Trial.pipeline Trial.entry.path Trial.entry.world).1 =
        .ok (some loaded) ∧
      Bootstrap.rewrite Trial.entry.place "bootstrapA();".toList = .ok rewritten ∧
      transpile Trial.entry.place rewritten = .ok code ∧
      loaded.contents = instrument code .entryBootstrap ∧
      ∀ c, (Instrument.snippet c).toList <:+ loaded.contents ↔ c = .entryBootstrap := by
  have loads : ((load PlainCompiler.compiler Trial.pipeline Trial.entry.path
      Trial.entry.world).1.toOption.bind id).isSome := by
    decide +kernel
  obtain ⟨loaded, hsome⟩ := Option.isSome_iff_exists.mp loads
  have hload : (load PlainCompiler.compiler Trial.pipeline Trial.entry.path
      Trial.entry.world).1 = .ok (some loaded) := by
    generalize (load PlainCompiler.compiler Trial.pipeline Trial.entry.path
      Trial.entry.world).1 = r at hsome
    rcases r with e | _ | loaded' <;> cases hsome
    rfl
  have found : ((afterLoad (compilerWith fun s => fingerprint (String.ofList s)) Trial.pipeline
      Trial.entry).session.program.source? Trial.entry.place).bind Trial.plainText? =
        some "bootstrapA();".toList := by
    decide +kernel
  have wraps : Bootstrap.callsOf (Syntax.read (.ofPath Trial.entry.place)
      "bootstrapA();".toList).program.body ≠ [] := by
    decide +kernel
  obtain ⟨source, hsource, hplain⟩ := Option.bind_eq_some_iff.mp found
  unfold Trial.plainText? at hplain
  split at hplain
  case h_1 hnone =>
    have htext := Option.some.inj hplain
    have hinlined : source.inlinedText = "bootstrapA();".toList := by
      rw [PlainCompiler.Source.inlinedText, hnone, htext]
    obtain ⟨rewritten, code, hrewritten, hcode, hcontents, hsnippet⟩ :=
      wrapped_code_has_entry_snippet.2 (fun s => fingerprint (String.ofList s)) Trial.pipeline
        Trial.entry "bootstrapA();".toList source loaded (by decide) (by decide) hload hsource
        htext (by simp [hnone]) (by rw [hinlined]; exact wraps)
    rw [hinlined] at hrewritten
    exact ⟨rewritten, code, _, hload, hrewritten, hcode, hcontents, hsnippet⟩
  case h_2 => cases hplain

end Pipeline

end LiveLoader
