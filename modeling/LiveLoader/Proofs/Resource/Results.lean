import Mathlib.Data.List.Forall2
import LiveLoader.Proofs.Resource.Styles

/-!
# What properties are inlined to

Inlining is strict about files and lenient about styles. It comes to a result exactly if each file that
the properties need can be read, and fails for the first one that cannot. The result has a replacement
for each property that is replaced and an entry for each file, in the order of the properties; a style
whose transform fails is an empty one among them.
-/

namespace LiveLoader

/-- A traversal that comes to a result does so step by step. -/
theorem forall₂_of_mapM {f : α → Except ε β} {as : List α} {bs : List β} (h : as.mapM f = .ok bs) :
    List.Forall₂ (fun a b => f a = .ok b) as bs := by
  induction as generalizing bs with
  | nil =>
    cases h
    exact .nil
  | cons a as ih =>
    obtain ⟨b, cs, hb, hcs, rfl⟩ := mapM_cons_eq_ok.mp h
    exact .cons hb (ih hcs)

/-- What is made of some members of a list stands beside these members. -/
theorem forall₂_filter_filterMap {R : α → β → Prop} {p : α → Bool} {f : α → Option β} {as : List α}
    (hp : ∀ a ∈ as, (f a).isSome = p a) (hR : ∀ a ∈ as, ∀ b, f a = some b → R a b) :
    List.Forall₂ R (as.filter p) (as.filterMap f) := by
  induction as with
  | nil => exact .nil
  | cons a as ih =>
    have rest := ih (fun a' h => hp a' (List.mem_cons_of_mem a h))
      fun a' h => hR a' (List.mem_cons_of_mem a h)
    have hself := hp a List.mem_cons_self
    cases hf : f a with
    | none =>
      rw [hf] at hself
      rwa [List.filter_cons_of_neg (by simp [← hself]), List.filterMap_cons_none hf]
    | some b =>
      rw [hf] at hself
      rw [List.filter_cons_of_pos (by simp [← hself]), List.filterMap_cons_some hf]
      exact .cons (hR a List.mem_cons_self b hf) rest

namespace Resource

open Text

section

variable {digest : List Char → String} {host : ResourceHost} {fs : FileSystem} {component : Path}

/-- The files that must be read for some properties, in order. -/
def neededFiles (component : Path) (ps : List MetadataProperty) : List Path :=
  ps.flatMap (·.files component)

/-- The entry of a file that was read. -/
def Listed (digest : List Char → String) (fs : FileSystem) (file : Path) (entry : Path × String) :
    Prop :=
  ∃ text, fs.readText file = .ok text ∧ entry = (file, digest text)

theorem listed_of_readFile {url : List Char} {r : Path × List Char}
    (h : Build.result (readFile fs component url) = .ok r) :
    Listed digest fs (fileOf component url) (r.1, digest r.2) := by
  obtain ⟨hfile, hread⟩ := (readFile_eq_ok fs component url).mp h
  rw [hfile] at hread
  exact ⟨r.2, hread, by rw [hfile]⟩

theorem files_inlineProperty {p : MetadataProperty} {part : Inlined}
    (h : Build.result (inlineProperty digest host fs component p) = .ok part) :
    List.Forall₂ (Listed digest fs) (p.files component) part.files := by
  rcases p with ⟨kind, span, values⟩
  cases kind with
  | templateUrl =>
    cases values with
    | nil =>
      cases h
      exact .nil
    | cons url urls =>
      simp only [inlineProperty, Build.result_bind, bind_eq_ok, Build.result_pure,
        Except.ok.injEq] at h
      obtain ⟨r, hr, rfl⟩ := h
      exact .cons (listed_of_readFile hr) .nil
  | styleUrls =>
    simp only [inlineProperty, Build.result_bind, bind_eq_ok, Build.result_pure,
      Build.result_mapM, Except.ok.injEq] at h
    obtain ⟨styles, hstyles, rfl⟩ := h
    simp only [MetadataProperty.files, fingerprints, List.map_map, List.forall₂_map_left_iff,
      List.forall₂_map_right_iff]
    refine (forall₂_of_mapM hstyles).imp fun url r hr => ?_
    exact listed_of_readFile ((readStyle_eq_ok fs component url host).mp hr).1
  | inlineStyles =>
    simp only [inlineProperty, Build.result_bind, bind_eq_ok] at h
    obtain ⟨styles, -, h⟩ := h
    split at h
    all_goals
      cases h
      exact .nil

theorem files_inlineAll {ps : List MetadataProperty} {inlined : Inlined}
    (h : Build.result (inlineAll digest host fs component ps) = .ok inlined) :
    List.Forall₂ (Listed digest fs) (neededFiles component ps) inlined.files := by
  simp only [inlineAll, Build.result_map, map_eq_ok, Build.result_mapM] at h
  obtain ⟨parts, hparts, rfl⟩ := h
  rw [files_concat]
  exact List.rel_flatMap (forall₂_of_mapM hparts) fun _ _ => files_inlineProperty

/-- The text that is inlined for a style: without an extension for styles the style as it is, else what
the transform makes of it, which is nothing if it fails. -/
def styleText (host : ResourceHost) (component : Path) (file : Option Path) (text : List Char) :
    List Char :=
  match host.stylesExtension with
  | none => text
  | some ext =>
    match host.stylesheets text (ResourceHost.stylesheetId ⟨.style, file, component⟩ ext) with
    | .ok css => css
    | .error _ => []

/-- A transform, where there is one, comes to a style also if it fails. -/
theorem value_transform (file : Option Path) (text : List Char) :
    (host.transform text ⟨.style, file, component⟩).value =
      host.stylesExtension.map fun _ => styleText host component file text := by
  unfold ResourceHost.transform styleText
  cases host.stylesExtension with
  | none => rfl
  | some ext =>
    dsimp only
    cases host.stylesheets text (ResourceHost.stylesheetId ⟨.style, file, component⟩ ext) <;> rfl

theorem getD_transform (file : Option Path) (text : List Char) :
    (host.transform text ⟨.style, file, component⟩).value.getD text =
      styleText host component file text := by
  rw [value_transform]
  cases h : host.stylesExtension with
  | none => rw [styleText, h]; rfl
  | some ext => rfl

theorem values_ne_nil_of_ofEntry? {e : Syntax.Node} {q : MetadataProperty}
    (h : MetadataProperty.ofEntry? e = some q) : q.values ≠ [] := by
  unfold MetadataProperty.ofEntry? at h
  split at h
  case h_1 =>
    simp only [Option.bind_eq_bind, Option.bind_eq_some_iff] at h
    obtain ⟨kind, -, texts, -, h⟩ := h
    split at h
    case h_1 => cases h
    case h_2 =>
      cases h
      exact List.cons_ne_nil _ _
  case h_2 => cases h

/-- The properties that are collected from a program list at least one value each. -/
theorem values_ne_nil_of_mem_properties {p : Syntax.Program} {q : MetadataProperty}
    (hq : q ∈ properties p) : q.values ≠ [] := by
  obtain ⟨m, -, hq⟩ := List.mem_flatMap.mp hq
  obtain ⟨_, _, _, _, -, _, -, e, -, he⟩ := mem_classProperties hq
  exact values_ne_nil_of_ofEntry? he

/-- Styles in the component itself are replaced only where the host transforms styles. -/
def isReplaced (host : ResourceHost) (p : MetadataProperty) : Bool :=
  p.kind ≠ .inlineStyles || host.stylesExtension.isSome

/-- A style as it is inlined for the name of a file. -/
def StyleOf (host : ResourceHost) (fs : FileSystem) (component : Path) (url style : List Char) :
    Prop :=
  ∃ text, fs.readText (fileOf component url) = .ok text ∧
    style = styleText host component (some (fileOf component url)) text

/-- The replacement of a property, with the text of the first template or with one style for each
value. -/
inductive Replaces (host : ResourceHost) (fs : FileSystem) (component : Path) :
    MetadataProperty → Replacement → Prop
  | template {span : Syntax.Span} {url text : List Char} {urls : List (List Char)} :
      fs.readText (fileOf component url) = .ok text →
      Replaces host fs component ⟨.templateUrl, span, url :: urls⟩ ⟨span, templateText text⟩
  | files {span : Syntax.Span} {urls styles : List (List Char)} :
      List.Forall₂ (StyleOf host fs component) urls styles →
      Replaces host fs component ⟨.styleUrls, span, urls⟩ ⟨span, stylesText styles⟩
  | texts {span : Syntax.Span} {texts : List (List Char)} :
      Replaces host fs component ⟨.inlineStyles, span, texts⟩
        ⟨span, stylesText (texts.map (styleText host component none))⟩

theorem isSome_replacement? {p : MetadataProperty} (listed : p.values ≠ []) :
    (replacement? host fs component p).isSome = isReplaced host p := by
  rcases p with ⟨kind, span, values⟩
  obtain ⟨v, vs, rfl⟩ := List.exists_cons_of_ne_nil listed
  cases kind with
  | templateUrl => rfl
  | styleUrls => rfl
  | inlineStyles =>
    simp only [replacement?, newText?, value_transform, Option.isSome_map, isReplaced]
    cases host.stylesExtension <;> simp

theorem replaces_of_replacement? {p : MetadataProperty} {r : Replacement}
    (readable : ∀ file ∈ p.files component, Readable fs file)
    (h : replacement? host fs component p = some r) : Replaces host fs component p r := by
  rcases p with ⟨kind, span, values⟩
  obtain ⟨text, htext, rfl⟩ := Option.map_eq_some_iff.mp h
  cases kind with
  | templateUrl =>
    cases values with
    | nil => cases htext
    | cons url urls =>
      obtain rfl := Option.some.inj htext
      obtain ⟨text, hread⟩ := readable (fileOf component url) List.mem_cons_self
      rw [fileText_eq hread]
      exact .template hread
  | styleUrls =>
    obtain rfl := Option.some.inj htext
    refine .files (List.forall₂_map_right_iff.mpr (List.forall₂_same.mpr fun url hurl => ?_))
    obtain ⟨text, hread⟩ := readable (fileOf component url) (List.mem_map_of_mem hurl)
    refine ⟨text, hread, ?_⟩
    rw [fileStyled, fileText_eq hread, styled, getD_transform]
  | inlineStyles =>
    rw [newText?, Option.ite_none_right_eq_some] at htext
    obtain ⟨-, htext⟩ := htext
    obtain rfl := Option.some.inj htext
    have hstyles : inlineStyled host component = styleText host component none :=
      funext fun text => getD_transform none text
    rw [hstyles]
    exact .texts

theorem replaces_of_mem {ps : List MetadataProperty} {inlined : Inlined}
    (h : Build.result (inlineAll digest host fs component ps) = .ok inlined) {p : MetadataProperty}
    (hp : p ∈ ps) {r : Replacement} (hr : replacement? host fs component p = some r) :
    Replaces host fs component p r := by
  have readable := (needs_inlineAll digest host fs component ps).eq_ok_iff.mp ⟨inlined, h⟩
  exact replaces_of_replacement? (fun file hfile =>
    readable file (List.mem_flatMap.mpr ⟨p, hp, hfile⟩)) hr

end

/-- Properties that list at least one value each, as those of a program do, are inlined exactly if all
files that they need can be read; otherwise inlining fails for the first one that cannot, whatever
becomes of the styles. The result lists each file with the digest of its own text, and it has one
replacement for each template and each property of style files, and for each property of inline styles
just if styles are transformed. -/
theorem inlineAll_of_listed (digest : List Char → String) (host : ResourceHost) (fs : FileSystem)
    (component : Path) {ps : List MetadataProperty} (listed : ∀ p ∈ ps, p.values ≠ []) :
    (∀ program, ∀ p ∈ properties program, p.values ≠ []) ∧
    ((∃ inlined, Build.result (inlineAll digest host fs component ps) = .ok inlined) ↔
      ∀ file ∈ neededFiles component ps, Readable fs file) ∧
    (∀ e, Build.result (inlineAll digest host fs component ps) = .error e ↔
      ∃ front file back, neededFiles component ps = front ++ file :: back ∧
        (∀ f ∈ front, Readable fs f) ∧ ¬ Readable fs file ∧ e = .resourceNotFound file) ∧
    ∀ inlined, Build.result (inlineAll digest host fs component ps) = .ok inlined →
      List.Forall₂ (Listed digest fs) (neededFiles component ps) inlined.files ∧
      List.Forall₂ (Replaces host fs component) (ps.filter (isReplaced host))
        inlined.replacements := by
  have needs := needs_inlineAll digest host fs component ps
  refine ⟨fun _ _ => values_ne_nil_of_mem_properties, needs.eq_ok_iff, fun e => needs.eq_error_iff,
    fun inlined h => ⟨files_inlineAll h, ?_⟩⟩
  rw [replacements_inlineAll h]
  exact forall₂_filter_filterMap (fun p hp => isSome_replacement? (listed p hp)) fun p hp r hr =>
    replaces_of_mem h hp hr

namespace Card

def component : Path := .ofString "/card.ts"

/-- A template with all characters that are escaped, and two stylesheets. -/
def files : FileSystem := ⟨"/", [(["card.html".toList], .file (some "it's\n\\\r".toList)),
  (["a.css".toList], .file (some "a".toList)), (["b.css".toList], .file (some "b".toList))]⟩

/-- A host whose transform fails for one of the stylesheets. -/
def host : ResourceHost := ⟨some "css".toList, fun css _ =>
  if css = "b".toList then .error (.setup "b") else .ok ('.' :: css)⟩

def properties : List MetadataProperty :=
  [⟨.templateUrl, ⟨0, 1⟩, ["./card.html".toList]⟩,
    ⟨.styleUrls, ⟨1, 2⟩, ["./a.css".toList, "./b.css".toList]⟩,
    ⟨.inlineStyles, ⟨2, 3⟩, ["c".toList]⟩]

/-- The properties with a stylesheet that is missing among those of one more. -/
def broken : List MetadataProperty :=
  properties ++ [⟨.styleUrls, ⟨3, 4⟩, ["./a.css".toList, "./x.css".toList, "./y.css".toList]⟩]

/-- The files that are needed up to the missing one. -/
def readFiles : List Path :=
  [.ofString "/card.html", .ofString "/a.css", .ofString "/b.css", .ofString "/a.css"]

def inlining : Result Inlined :=
  Build.result (inlineAll String.ofList host files component properties)

def texts : List (List Char) :=
  ["template: 'it\\'s\\n\\\\\\r'".toList, "styles: ['.a', '']".toList, "styles: ['.c']".toList]

theorem outcome : (∀ p ∈ broken, p.values ≠ []) ∧
    neededFiles component broken =
      readFiles ++ .ofString "/x.css" :: [.ofString "/y.css"] ∧
    (∀ file ∈ readFiles, (files.readText file).toOption.isNone = false) ∧
    (files.readText (.ofString "/x.css")).toOption.isNone = true ∧
    inlining.toOption.map (fun i => i.replacements.map Replacement.text) = some texts := by
  decide +kernel

theorem exists_inlined : ∃ inlined, inlining = .ok inlined ∧
    inlined.replacements.map Replacement.text = texts := by
  obtain ⟨-, -, -, -, h⟩ := outcome
  obtain ⟨inlined, hinlined, htexts⟩ := Option.map_eq_some_iff.mp h
  exact ⟨inlined, toOption_eq_some.mp hinlined, htexts⟩

end Card

theorem inlineAll_of_listed_card :
    (∃ inlined, Card.inlining = .ok inlined ∧
      inlined.replacements.map Replacement.text = Card.texts ∧
      List.Forall₂ (Listed String.ofList Card.files) (neededFiles Card.component Card.properties)
        inlined.files ∧
      List.Forall₂ (Replaces Card.host Card.files Card.component)
        (Card.properties.filter (isReplaced Card.host)) inlined.replacements) ∧
    Build.result (inlineAll String.ofList Card.host Card.files Card.component Card.broken) =
      .error (.resourceNotFound (.ofString "/x.css")) := by
  obtain ⟨listed, needed, readable, unreadable, -⟩ := Card.outcome
  constructor
  · obtain ⟨inlined, h, texts⟩ := Card.exists_inlined
    obtain ⟨-, -, -, results⟩ := inlineAll_of_listed String.ofList Card.host Card.files Card.component
      fun p hp => listed p (List.mem_append_left _ hp)
    exact ⟨inlined, h, texts, results inlined h⟩
  · obtain ⟨-, -, failures, -⟩ := inlineAll_of_listed String.ofList Card.host Card.files Card.component
      listed
    refine (failures _).mpr ⟨_, _, _, needed, fun file hfile => ?_, ?_, rfl⟩
    · exact readable_iff.mpr (readable file hfile)
    · rw [readable_iff, unreadable]
      decide

end Resource

end LiveLoader
