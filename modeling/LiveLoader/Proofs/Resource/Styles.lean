import Mathlib.Data.List.Basic
import LiveLoader.Proofs.Resource.Inlining
import LiveLoader.Proofs.Resource.Places
import LiveLoader.Proofs.Text.Quoted
import LiveLoader.Proofs.Text.Splice

/-!
# The styles of a spliced component

Each property that names or holds styles is replaced on its own by a property `styles`. Where an object
has several of them, the last one decides in a script, so the styles of the others are lost unless the
last one has them too.
-/

namespace LiveLoader.Resource

open Syntax Text

/-- The texts of the literals up to the bracket that closes their list. -/
def listed? : Nat → List Char → Option (List (List Char))
  | 0, _ => none
  | fuel + 1, s =>
    match Quoted.decode? s with
    | some (text, [']']) => some [text]
    | some (text, ',' :: ' ' :: rest) => (listed? fuel rest).map (text :: ·)
    | _ => none

/-- The texts that a property `styles` in the form of a replacement lists. -/
def listedStyles? (property : List Char) : Option (List (List Char)) :=
  match property with
  | 's' :: 't' :: 'y' :: 'l' :: 'e' :: 's' :: ':' :: ' ' :: '[' :: rest =>
    if rest = [']'] then some [] else listed? rest.length rest
  | _ => none

/-- The literals of some texts, with commas between them. -/
def literals (texts : List (List Char)) : List Char :=
  ((texts.map Quoted.encode).intersperse ", ".toList).flatten

theorem stylesText_eq (texts : List (List Char)) :
    stylesText texts = "styles: [".toList ++ (literals texts ++ [']']) :=
  List.append_assoc _ _ _

theorem literals_cons_cons (text next : List Char) (texts : List (List Char)) :
    literals (text :: next :: texts) =
      Quoted.encode text ++ (',' :: ' ' :: literals (next :: texts)) := by
  rw [literals, List.map_cons, List.map_cons, List.intersperse_cons_cons, List.flatten_cons,
    List.flatten_cons]
  rfl

theorem length_le_literals (texts : List (List Char)) : texts.length ≤ (literals texts).length := by
  induction texts with
  | nil => exact Nat.le_refl _
  | cons text texts ih =>
    cases texts with
    | nil => simp [literals, Quoted.encode]
    | cons next texts =>
      rw [literals_cons_cons]
      simp only [List.length_cons, List.length_append] at ih ⊢
      omega

theorem listed?_literals (text : List Char) (texts : List (List Char)) {fuel : Nat}
    (h : texts.length < fuel) :
    listed? fuel (literals (text :: texts) ++ [']']) = some (text :: texts) := by
  induction texts generalizing text fuel with
  | nil =>
    obtain ⟨fuel, rfl⟩ := Nat.exists_eq_add_one_of_ne_zero (n := fuel) (by omega)
    have hliteral : literals [text] = Quoted.encode text := by simp [literals]
    rw [hliteral, listed?, Quoted.decode?_encode]
    rfl
  | cons next texts ih =>
    obtain ⟨fuel, rfl⟩ := Nat.exists_eq_add_one_of_ne_zero (n := fuel) (by omega)
    rw [literals_cons_cons, List.append_assoc, listed?, Quoted.decode?_encode]
    have hrest : listed? fuel (literals (next :: texts) ++ [']']) = some (next :: texts) :=
      ih next (by simpa using h)
    simp only [List.cons_append, hrest, Option.map_some]

/-- A replacement lists just the texts that it was written for. -/
theorem listedStyles?_stylesText (texts : List (List Char)) :
    listedStyles? (stylesText texts) = some texts := by
  rw [stylesText_eq]
  cases texts with
  | nil => rfl
  | cons text texts =>
    have hlength := length_le_literals (text :: texts)
    have hrest : literals (text :: texts) ++ [']'] ≠ [']'] := by
      intro heq
      have := congrArg List.length heq
      simp only [List.length_append, List.length_cons, List.length_nil] at this hlength
      omega
    show (if literals (text :: texts) ++ [']'] = [']'] then some [] else _) = _
    rw [if_neg hrest]
    have hfuel : texts.length < (literals (text :: texts) ++ [']']).length := by
      rw [List.length_append]
      exact Nat.lt_of_lt_of_le hlength (Nat.le_add_right _ _)
    exact listed?_literals text texts hfuel

section

variable (host : ResourceHost) (fs : FileSystem) (component : Path)

/-- The text of a file that a component names; none if it cannot be read. -/
def fileText (url : List Char) : List Char :=
  (fs.readText (fileOf component url)).toOption.getD []

/-- The text of a style in the component itself, as the host transforms it. -/
def inlineStyled (text : List Char) : List Char :=
  (host.transform text ⟨.style, none, component⟩).value.getD text

/-- The text of a style in a file that the component names, as the host transforms it. -/
def fileStyled (url : List Char) : List Char :=
  styled host component (fileOf component url) (fileText fs component url)

/-- What stands in the place of a property, if it is replaced, once all files can be read. -/
def newText? : MetadataKind → List (List Char) → Option (List Char)
  | .templateUrl, [] => none
  | .templateUrl, url :: _ => some (templateText (fileText fs component url))
  | .styleUrls, urls => some (stylesText (urls.map (fileStyled host fs component)))
  | .inlineStyles, texts =>
    if texts.any fun text => (host.transform text ⟨.style, none, component⟩).value.isSome then
      some (stylesText (texts.map (inlineStyled host component)))
    else none

def replacement? (q : MetadataProperty) : Option Replacement :=
  (newText? host fs component q.kind q.values).map fun text => ⟨q.span, text⟩

variable {host fs component}

theorem span_of_replacement? {q : MetadataProperty} {r : Replacement}
    (h : replacement? host fs component q = some r) : r.span = q.span := by
  obtain ⟨text, -, rfl⟩ := Option.map_eq_some_iff.mp h
  rfl

theorem fileText_eq {url text : List Char}
    (h : fs.readText (fileOf component url) = .ok text) : fileText fs component url = text := by
  rw [fileText, h]
  rfl

/-- A property that is inlined is replaced so. -/
theorem replacements_inlineProperty {digest : List Char → String} {q : MetadataProperty}
    {part : Inlined} (h : Build.result (inlineProperty digest host fs component q) = .ok part) :
    part.replacements = (replacement? host fs component q).toList := by
  rcases q with ⟨kind, span, values⟩
  cases kind with
  | templateUrl =>
    cases values with
    | nil =>
      cases h
      rfl
    | cons url urls =>
      simp only [inlineProperty, Build.result_bind, bind_eq_ok, Build.result_pure,
        Except.ok.injEq, readFile_eq_ok] at h
      obtain ⟨⟨file, text⟩, ⟨rfl, hread⟩, rfl⟩ := h
      simp only [replacement?, newText?, fileText_eq hread]
      rfl
  | styleUrls =>
    simp only [inlineProperty, Build.result_bind, bind_eq_ok, Build.result_pure,
      Build.result_mapM, Except.ok.injEq] at h
    obtain ⟨styles, hstyles, rfl⟩ := h
    have htexts : styles.map (·.2) = values.map (fileStyled host fs component) := by
      refine map_eq_of_mapM hstyles fun url r hr => ?_
      rw [readStyle_eq_ok, readFile_eq_ok] at hr
      obtain ⟨⟨hfile, hread⟩, hcss⟩ := hr
      rw [hfile] at hread hcss
      rw [hcss, fileStyled, fileText_eq hread]
    simp only [replacement?, newText?, ← htexts]
    rfl
  | inlineStyles =>
    have hstyled : ∀ text, Build.result (do
        let css ← Build.ofLogged (host.transform text ⟨.style, none, component⟩)
        return (text, css)) = .ok (text, (host.transform text ⟨.style, none, component⟩).value) :=
      fun _ => rfl
    rw [inlineProperty, Build.result_bind, Build.result_mapM, mapM_eq_map hstyled] at h
    simp only [bind_eq_ok, Except.ok.injEq, exists_eq_left', List.any_map, List.map_map,
      Function.comp_def] at h
    simp only [replacement?, newText?]
    split at h
    case isTrue hany =>
      cases h
      rw [if_pos hany]
      rfl
    case isFalse hnone =>
      cases h
      rw [if_neg hnone]
      rfl

theorem replacements_concat (parts : List Inlined) :
    (Inlined.concat parts).replacements = parts.flatMap (·.replacements) := by
  induction parts with
  | nil => rfl
  | cons part parts ih => rw [List.flatMap_cons, ← ih]; rfl

/-- Inlining replaces each property on its own. -/
theorem replacements_inlineAll {digest : List Char → String} {qs : List MetadataProperty}
    {part : Inlined} (h : Build.result (inlineAll digest host fs component qs) = .ok part) :
    part.replacements = qs.filterMap (replacement? host fs component) := by
  simp only [inlineAll, Build.result_map, map_eq_ok, Build.result_mapM] at h
  obtain ⟨parts, hparts, rfl⟩ := h
  have hmap : parts.map (·.replacements) =
      qs.map fun q => (replacement? host fs component q).toList :=
    map_eq_of_mapM hparts fun q part hq => replacements_inlineProperty hq
  rw [replacements_concat, List.flatMap_def, hmap, ← List.flatMap_def,
    List.filterMap_eq_flatMap_toList]

variable (host fs component)

/-- What an entry gives for `styles` as it stands: nothing, or a value, which is known if it consists
of literals. -/
def ownStyles? : Node → Option (Option (List (List Char)))
  | .mk (.property _) _ [key, value] =>
    if keyText? key = some "styles" then some (literalTexts? value) else none
  | _ => none

/-- What the entry of the spliced object gives for `styles`. -/
def splicedStyles? (e : Node) : Option (Option (List (List Char))) :=
  match (MetadataProperty.ofEntry? e).bind (replacement? host fs component) with
  | some r => (listedStyles? r.text).map some
  | none => ownStyles? e

/-- The styles that an entry declares, inline or by the names of files, as the host transforms them. A
list without names is no declaration. -/
def declaredStyles? : Node → Option (Option (List (List Char)))
  | .mk (.property _) _ [key, value] =>
    match (keyText? key).bind MetadataKind.ofName?, literalTexts? value with
    | some .inlineStyles, texts => some (texts.map fun texts => texts.map (inlineStyled host component))
    | some .styleUrls, some (url :: urls) =>
      some (some ((url :: urls).map (fileStyled host fs component)))
    | _, _ => none
  | _ => none

/-- In an object literal the last entry for a name decides. -/
def deciding (gives : Node → Option α) (entries : List Node) : Option α :=
  (entries.filterMap gives).getLast?

variable {host fs component}

theorem ofEntry?_mk (kind : PropertyKind) (span : Span) (key value : Node) :
    MetadataProperty.ofEntry? (.mk (.property kind) span [key, value]) =
      match (keyText? key).bind MetadataKind.ofName?, literalTexts? value with
      | some kind, some (v :: vs) => some ⟨kind, span, v :: vs⟩
      | _, _ => none := by
  simp only [MetadataProperty.ofEntry?, Option.bind_eq_bind]
  cases (keyText? key).bind MetadataKind.ofName? with
  | none => rfl
  | some kind =>
    cases literalTexts? value with
    | none => rfl
    | some texts => cases texts <;> rfl

theorem ofName?_eq_inlineStyles {name : String} :
    MetadataKind.ofName? name = some .inlineStyles ↔ name = "styles" := by
  constructor
  · intro h
    unfold MetadataKind.ofName? at h
    split at h <;> first | rfl | cases h
  · rintro rfl
    rfl

theorem keyText?_eq_styles {key : Node} : keyText? key = some "styles" ↔
    (keyText? key).bind MetadataKind.ofName? = some .inlineStyles := by
  cases keyText? key with
  | none => simp
  | some name => rw [Option.bind_some, ofName?_eq_inlineStyles, Option.some.injEq]

/-- Styles that the host does not transform are as they were written. -/
theorem map_inlineStyled {texts : List (List Char)}
    (h : newText? host fs component .inlineStyles texts = none) :
    texts.map (inlineStyled host component) = texts := by
  rw [newText?, ite_eq_right_iff] at h
  have hnone : ∀ text ∈ texts, (host.transform text ⟨.style, none, component⟩).value = none := by
    simpa using h
  refine (List.map_congr_left fun text htext => ?_).trans (List.map_id' texts)
  rw [inlineStyled, hnone text htext, Option.getD_none]

theorem ownStyles?_mk (kind : PropertyKind) (span : Span) (key value : Node) :
    ownStyles? (.mk (.property kind) span [key, value]) =
      if (keyText? key).bind MetadataKind.ofName? = some .inlineStyles then
        some (literalTexts? value)
      else none := by
  simp only [ownStyles?, keyText?_eq_styles]

/-- The entry of the spliced object gives the styles that were declared. -/
theorem splicedStyles?_eq (e : Node) :
    splicedStyles? host fs component e = declaredStyles? host fs component e := by
  unfold declaredStyles?
  split
  case h_1 kind span key value =>
    rw [splicedStyles?, ofEntry?_mk, ownStyles?_mk]
    cases (keyText? key).bind MetadataKind.ofName? with
    | none => rfl
    | some kind =>
      cases kind with
      | templateUrl =>
        rcases literalTexts? value with _ | _ | ⟨url, urls⟩
        all_goals rfl
      | styleUrls =>
        rcases literalTexts? value with _ | _ | ⟨url, urls⟩
        · rfl
        · rfl
        · simp only [Option.bind_some, replacement?, newText?, Option.map_some,
            listedStyles?_stylesText]
      | inlineStyles =>
        rcases literalTexts? value with _ | _ | ⟨text, texts⟩
        · rfl
        · rfl
        · simp only [Option.bind_some, replacement?]
          cases hnew : newText? host fs component .inlineStyles (text :: texts) with
          | none => simp only [Option.map_none, if_true, Option.map_some, map_inlineStyled hnew]
          | some new =>
            rw [newText?, Option.ite_none_right_eq_some] at hnew
            obtain ⟨-, hnew⟩ := hnew
            obtain rfl := Option.some.inj hnew
            simp only [Option.map_some, listedStyles?_stylesText]
  case h_2 other =>
    have hentry : MetadataProperty.ofEntry? e = none := by
      unfold MetadataProperty.ofEntry?
      split
      case h_1 => exact (other _ _ _ _ rfl).elim
      case h_2 => rfl
    have hown : ownStyles? e = none := by
      unfold ownStyles?
      split
      case h_1 => exact (other _ _ _ _ rfl).elim
      case h_2 => rfl
    simp only [splicedStyles?, hentry, hown, Option.bind_none]

theorem deciding_of_unique {gives : Node → Option α} {entries : List Node} {e : Node}
    (he : e ∈ entries) {a : α} (hgives : gives e = some a)
    (unique : ∀ e' ∈ entries, gives e' ≠ none → e' = e) : deciding gives entries = some a := by
  have hne : entries.filterMap gives ≠ [] :=
    List.ne_nil_of_mem (List.mem_filterMap.mpr ⟨e, he, hgives⟩)
  rw [deciding, List.getLast?_eq_some_getLast hne, Option.some.injEq]
  obtain ⟨e', he', hlast⟩ := List.mem_filterMap.mp (List.getLast_mem hne)
  obtain rfl := unique e' he' (by rw [hlast]; exact Option.some_ne_none _)
  exact Option.some.inj (hlast.symm.trans hgives)

theorem exists_inlined_of_readable {digest : List Char → String} {qs : List MetadataProperty}
    (readable : ∀ q ∈ qs, ∀ file ∈ q.files component, ∃ text, fs.readText file = .ok text) :
    ∃ inlined, Build.result (inlineAll digest host fs component qs) = .ok inlined := by
  refine (needs_inlineAll digest host fs component qs).eq_ok_iff.mpr fun file hfile => ?_
  obtain ⟨q, hq, hfile⟩ := List.mem_flatMap.mp hfile
  exact readable q hq file hfile

/-- If all files can be read, each property is replaced on its own, and each replacement finds its
place in the text. So what an object gives for its styles after splicing is what the last of its
entries declares that declares any; nothing is lost where there is only one such entry. -/
theorem styles_after_splice {digest : List Char → String} {source : List Char} {p : Program}
    {problems : Nat} (h : read (.ofPath component) source = .tree p problems)
    (placed : p.WellPlaced)
    (readable : ∀ q ∈ properties p, ∀ file ∈ q.files component,
      ∃ text, fs.readText file = .ok text) :
    (∃ inlined front, Build.result (inlineAll digest host fs component (properties p)) = .ok inlined ∧
      inlined.replacements = (properties p).filterMap (replacement? host fs component) ∧
      front.Perm inlined.replacements ∧ (front.map Replacement.span).Pairwise Span.Before ∧
      splice? source inlined.replacements = some (weave source 0 front)) ∧
    (∀ d, deciding (splicedStyles? host fs component) (metadataEntries d) =
      deciding (declaredStyles? host fs component) (metadataEntries d)) ∧
    ∀ d, ∀ e ∈ metadataEntries d, ∀ texts, declaredStyles? host fs component e = some (some texts) →
      (∀ e' ∈ metadataEntries d, declaredStyles? host fs component e' ≠ none → e' = e) →
      deciding (splicedStyles? host fs component) (metadataEntries d) = some (some texts) := by
  have hspliced : splicedStyles? host fs component = declaredStyles? host fs component :=
    funext splicedStyles?_eq
  refine ⟨?_, fun d => by rw [hspliced], ?_⟩
  · obtain ⟨inlined, hinlined⟩ :
        ∃ inlined, Build.result (inlineAll digest host fs component (properties p)) = .ok inlined :=
      exists_inlined_of_readable readable
    have hreplacements := replacements_inlineAll hinlined
    have apart : (inlined.replacements.map Replacement.span).Pairwise Span.Apart := by
      rw [hreplacements, List.pairwise_map, List.pairwise_filterMap]
      refine (List.pairwise_map.mp (properties_apart placed)).imp ?_
      intro q q' apart r hr r' hr'
      rw [span_of_replacement? hr, span_of_replacement? hr']
      exact apart
    have inText : ∀ r ∈ inlined.replacements,
        r.span.start < r.span.stop ∧ r.span.stop ≤ source.length := by
      intro r hr
      rw [hreplacements] at hr
      obtain ⟨q, hq, hr⟩ := List.mem_filterMap.mp hr
      rw [span_of_replacement? hr, ← length_of_read h]
      exact properties_inText placed hq
    obtain ⟨front, perm, before, hsplice⟩ := splice?_of_apart apart inText
    exact ⟨inlined, front, hinlined, hreplacements, perm, before, hsplice⟩
  · intro d e he texts hdeclared unique
    rw [hspliced]
    exact deciding_of_unique he hdeclared unique

end

namespace Trial

def component : Path := .ofString "/a.ts"

/-- A stylesheet beside the component. -/
def files : FileSystem := ⟨"/", [(["a.css".toList], .file (some "a".toList))]⟩

def host : ResourceHost := ⟨none, .unchanged⟩

/-- A component with a stylesheet and a style of its own. -/
def source : List Char :=
  "@Component(\x7b styleUrl: './a.css', styles: ['b'] \x7d)\nexport class A \x7b\x7d\n".toList

def program : Program := (read (.ofPath component) source).program

def inlining : Result Inlined :=
  Build.result (inlineAll String.ofList host files component (properties program))

/-- The component after splicing. -/
def spliced : List Char :=
  "@Component(\x7b styles: ['a'], styles: ['b'] \x7d)\nexport class A \x7b\x7d\n".toList

/-- What comes of the component, and of its text after splicing. -/
theorem outcome : (read (.ofPath component) source).isGaveUp = false ∧ program.WellPlaced ∧
    (∀ q ∈ properties program, ∀ file ∈ q.files component,
      (files.readText file).toOption = some "a".toList) ∧
    inlining.toOption.map (fun inlined => splice source inlined.replacements) = some spliced ∧
    (∃ d ∈ Node.nodesOf program.body, ∃ e ∈ metadataEntries d,
      declaredStyles? host files component e = some (some ["a".toList])) ∧
    (read (.ofPath component) spliced).isGaveUp = false ∧
    ∃ d ∈ Node.nodesOf (read (.ofPath component) spliced).program.body,
      deciding ownStyles? (metadataEntries d) = some (some ["b".toList]) := by
  decide +kernel

theorem read_source : ∃ problems, read (.ofPath component) source = .tree program problems :=
  Reading.eq_tree outcome.1

theorem readable : ∀ q ∈ properties program, ∀ file ∈ q.files component,
    ∃ text, files.readText file = .ok text := by
  obtain ⟨-, -, h, -⟩ := outcome
  intro q hq file hfile
  exact ⟨_, toOption_eq_some.mp (h q hq file hfile)⟩

theorem exists_inlined : ∃ inlined, inlining = .ok inlined ∧
    splice source inlined.replacements = spliced := by
  obtain ⟨-, -, -, h, -⟩ := outcome
  obtain ⟨inlined, hinlined, hspliced⟩ := Option.map_eq_some_iff.mp h
  exact ⟨inlined, toOption_eq_some.mp hinlined, hspliced⟩

end Trial

theorem styles_after_splice_trial : ∃ problems,
    read (.ofPath Trial.component) Trial.source = .tree Trial.program problems ∧
    (∃ inlined front, Trial.inlining = .ok inlined ∧
      inlined.replacements = (properties Trial.program).filterMap
        (replacement? Trial.host Trial.files Trial.component) ∧
      front.Perm inlined.replacements ∧ (front.map Replacement.span).Pairwise Span.Before ∧
      splice? Trial.source inlined.replacements = some (weave Trial.source 0 front)) ∧
    ∀ d, deciding (splicedStyles? Trial.host Trial.files Trial.component) (metadataEntries d) =
      deciding (declaredStyles? Trial.host Trial.files Trial.component) (metadataEntries d) := by
  obtain ⟨problems, hread⟩ := Trial.read_source
  obtain ⟨-, placed, -⟩ := Trial.outcome
  obtain ⟨hsplice, hstyles, -⟩ := styles_after_splice hread placed Trial.readable
  exact ⟨problems, hread, hsplice, hstyles⟩

/-- A component declares the stylesheet `a` and the style `b`. After splicing its object has the two in
two entries for `styles`, and the second one decides. -/
theorem earlier_styles_are_lost : ∃ inlined problems problems' q,
    read (.ofPath Trial.component) Trial.source = .tree Trial.program problems ∧
    (∃ d ∈ Node.nodesOf Trial.program.body, ∃ e ∈ metadataEntries d,
      declaredStyles? Trial.host Trial.files Trial.component e = some (some ["a".toList])) ∧
    Trial.inlining = .ok inlined ∧
    read (.ofPath Trial.component) (splice Trial.source inlined.replacements) = .tree q problems' ∧
    ∃ d ∈ Node.nodesOf q.body, deciding ownStyles? (metadataEntries d) = some (some ["b".toList]) := by
  obtain ⟨problems, hread⟩ := Trial.read_source
  obtain ⟨-, -, -, -, declared, reads, decides⟩ := Trial.outcome
  obtain ⟨problems', hread'⟩ := Reading.eq_tree reads
  obtain ⟨inlined, hinlined, hspliced⟩ := Trial.exists_inlined
  rw [← hspliced] at hread' decides
  exact ⟨inlined, problems, problems', _, hread, declared, hinlined, hread', decides⟩

end LiveLoader.Resource
