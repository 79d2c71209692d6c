import Mathlib.Data.List.Duplicate
import LiveLoader.Options
import LiveLoader.Proofs.Json.Reading

/-!
# Reading options

Which options the members of an object give, in whatever order and among whatever others, and that
these are the options that any text for the object is read as. A field is given by one member of its
name, or left out; an object that repeats a field gives no options. All keys of the objects that
hold fields have to be texts, those of other members too.
-/

namespace LiveLoader

open Json

/-- How members give a field its value: one has the name of the field and means the value, or none
has the name and the value is the standard one. -/
inductive Sets (name : List Char) (standard : α) (Means : Json → α → Prop) :
    α → List Member → Prop where
  | given {a : α} {j : Json} {front back : List Member} (value : Means j a)
      (before : ∀ m ∈ front, m.1 ≠ some name) (after : ∀ m ∈ back, m.1 ≠ some name) :
      Sets name standard Means a (front ++ (some name, j) :: back)
  | omitted {ms : List Member} (absent : ∀ m ∈ ms, m.1 ≠ some name) :
      Sets name standard Means standard ms

/-- Duplicates of an element stand behind a part where it does not occur. -/
theorem duplicate_of_append {x : β} {front back : List β} (h : (front ++ back).Duplicate x)
    (hx : x ∉ front) : back.Duplicate x := by
  induction front with
  | nil => exact h
  | cons y front ih =>
    rw [List.mem_cons, not_or] at hx
    rcases List.duplicate_cons_iff.mp h with ⟨rfl, -⟩ | h
    · exact absurd rfl hx.1
    · exact ih h hx.2

namespace Sets

variable {name : List Char} {standard a : α} {Means : Json → α → Prop} {ms : List Member}

/-- Only a member that the object has counts. -/
theorem imp {Means' : Json → α → Prop} (h : Sets name standard Means a ms)
    (himp : ∀ j, (some name, j) ∈ ms → Means j a → Means' j a) : Sets name standard Means' a ms := by
  cases h with
  | given value before after => exact .given (himp _ (by simp) value) before after
  | omitted absent => exact .omitted absent

/-- A member of this name is the one that gives the value. -/
theorem means_of_mem (h : Sets name standard Means a ms) {j : Json} (hj : (some name, j) ∈ ms) :
    Means j a := by
  cases h with
  | given value before after =>
    rcases List.mem_append.mp hj with hj | hj
    · exact absurd rfl (before _ hj)
    · rcases List.mem_cons.mp hj with heq | hj
      · obtain rfl := (Prod.mk.inj heq).2
        exact value
      · exact absurd rfl (after _ hj)
  | omitted absent => exact absurd rfl (absent _ hj)

/-- A value is given at most once. -/
theorem not_duplicate (h : Sets name standard Means a ms) :
    ¬ (ms.map Prod.fst).Duplicate (some name) := by
  have not_mem {ms : List Member} (absent : ∀ m ∈ ms, m.1 ≠ some name) :
      some name ∉ ms.map Prod.fst := by
    intro hmem
    obtain ⟨m, hm, heq⟩ := List.mem_map.mp hmem
    exact absent m hm heq
  intro hdup
  cases h with
  | @given _ j front back value before after =>
    rw [List.map_append, List.map_cons] at hdup
    have hrest := duplicate_of_append hdup (not_mem before)
    rcases List.duplicate_cons_iff.mp hrest with ⟨-, hmem⟩ | hback
    · exact not_mem after hmem
    · exact not_mem after hback.mem
  | omitted absent => exact not_mem absent hdup.mem

end Sets

/-- A text, or `null` for none. -/
inductive MeansText : Json → Option (List Char) → Prop where
  | none : MeansText .null none
  | some {t : List Char} : MeansText (.string (some t)) (some t)

inductive MeansPath : Json → Path → Prop where
  | mk {t : List Char} : MeansPath (.string (some t)) ⟨t⟩

/-- The members of an object that gives the routing options. -/
structure RoutingOptions.Given (o : RoutingOptions) (ms : List Member) : Prop where
  redirectTo : Sets "redirectTo".toList none MeansText o.redirectTo ms
  filePath : Sets "filePath".toList (Path.ofString "src/routes.ng.ts") MeansPath o.filePath ms
  pagesPath : Sets "pagesPath".toList (Path.ofString "src/pages") MeansPath o.pagesPath ms

def MeansRouting (j : Json) (o : RoutingOptions) : Prop := ∃ ms, j = .object ms ∧ o.Given ms

/-- The members of an object that gives the options. -/
structure LoaderOptions.Given (o : LoaderOptions) (ms : List Member) : Prop where
  inlineStylesExtension :
    Sets "inlineStylesExtension".toList none MeansText o.inlineStylesExtension ms
  routing : Sets "routing".toList ⟨none, "src/routes.ng.ts", "src/pages"⟩ MeansRouting o.routing ms

namespace Json

/-- All keys are texts. -/
def TextKeys (ms : List Member) : Prop := ∀ m ∈ ms, m.1 ≠ none

instance : DecidablePred TextKeys := fun ms => List.decidableBAll _ ms

end Json

namespace LoaderOptions

/-- All keys of the object are texts, and those of the object that gives the routing options. -/
structure KeysWhole (ms : List Member) : Prop where
  outer : TextKeys ms
  inner : ∀ inner, (some "routing".toList, .object inner) ∈ ms → TextKeys inner

/-- A field is repeated, in the object or in one that gives the routing options. -/
inductive Repeats (ms : List Member) : Prop where
  | outer {name : List Char} (field : name ∈ fieldNames)
      (twice : (ms.map Prod.fst).Duplicate (some name))
  | inner {inner : List Member} {name : List Char} (field : name ∈ RoutingOptions.fieldNames)
      (routing : (some "routing".toList, .object inner) ∈ ms)
      (twice : (inner.map Prod.fst).Duplicate (some name))

end LoaderOptions

namespace Json

/-- A member whose key is a text. -/
def named (m : List Char × Json) : Member := (some m.1, m.2)

theorem mapM_key_eq_some_iff {ms : List Member} {ns : List (List Char × Json)} :
    (ms.mapM fun (k, j) => k.map (·, j)) = some ns ↔ ms = ns.map named := by
  induction ms generalizing ns with
  | nil => cases ns <;> simp
  | cons m ms ih =>
    obtain ⟨k, j⟩ := m
    simp only [List.mapM_cons, Option.bind_eq_bind, Option.bind_eq_some_iff, Option.pure_def,
      Option.some.injEq, ih, Option.map_eq_some_iff]
    constructor
    · rintro ⟨_, ⟨t, rfl, rfl⟩, ns, rfl, rfl⟩
      rfl
    · intro h
      cases ns with
      | nil => cases h
      | cons n ns =>
        obtain ⟨heq, rfl⟩ := List.cons.inj h
        obtain ⟨rfl, rfl⟩ := Prod.mk.inj heq
        exact ⟨n, ⟨n.1, rfl, rfl⟩, ns, rfl, rfl⟩

theorem textKeys_iff {ms : List Member} :
    TextKeys ms ↔ ∃ ns : List (List Char × Json), ms = ns.map named := by
  constructor
  · intro h
    induction ms with
    | nil => exact ⟨[], rfl⟩
    | cons m ms ih =>
      obtain ⟨hm, hms⟩ := List.forall_mem_cons.mp h
      obtain ⟨ns, rfl⟩ := ih hms
      obtain ⟨k, hk⟩ := Option.ne_none_iff_exists'.mp hm
      exact ⟨(k, m.2) :: ns, by simp [named, ← hk]⟩
  · rintro ⟨ns, rfl⟩ m hm
    obtain ⟨n, -, rfl⟩ := List.mem_map.mp hm
    exact Option.some_ne_none _

variable {name : List Char} {ns : List (List Char × Json)}

theorem absent_iff :
    (∀ m ∈ ns.map named, m.1 ≠ some name) ↔ ns.filter (·.1 = name) = [] := by
  rw [List.forall_mem_map, List.filter_eq_nil_iff]
  exact forall₂_congr fun n _ => by simp [named]

/-- A field of the object is looked up as the members tell it. -/
theorem sets_iff {standard a : α} {Means : Json → α → Prop} {read? : Json → Option α}
    (means : ∀ j a, read? j = some a ↔ Means j a) : Sets name standard Means a (ns.map named) ↔
      ∃ v, unique? ns name = some v ∧ fieldOr standard read? v = some a := by
  constructor
  · generalize hms : ns.map named = ms
    intro h
    cases h with
    | @given _ j front back value before after =>
      obtain ⟨front, rest, rfl, rfl, hrest⟩ := List.map_eq_append_iff.mp hms
      obtain ⟨n, back, rfl, hn, rfl⟩ := List.map_eq_cons_iff.mp hrest
      obtain ⟨rfl, rfl⟩ : n.1 = name ∧ n.2 = j := by simpa [named] using hn
      refine ⟨some n.2, ?_, (means _ _).mpr value⟩
      rw [unique?, List.filter_append, absent_iff.mp before, List.filter_cons_of_pos (by simp),
        absent_iff.mp after]
      rfl
    | omitted absent =>
      subst hms
      exact ⟨none, by rw [unique?, absent_iff.mp absent], rfl⟩
  · rintro ⟨v, hv, ha⟩
    rw [unique?] at hv
    split at hv
    next hnil =>
      obtain rfl := Option.some.inj hv
      obtain rfl := Option.some.inj ha
      exact .omitted (absent_iff.mpr hnil)
    next k j hone =>
      obtain rfl := Option.some.inj hv
      obtain ⟨front, back, rfl, before, hk, after⟩ := List.filter_eq_cons_iff.mp hone
      obtain rfl : k = name := by simpa using hk
      rw [List.map_append, List.map_cons]
      exact .given ((means _ _).mp ha) (absent_iff.mpr (List.filter_eq_nil_iff.mpr before))
        (absent_iff.mpr after)
    next => cases hv

theorem fields?_named (names : List (List Char)) (ns : List (List Char × Json)) :
    (object (ns.map named)).fields? names = names.mapM (unique? ns) := by
  rw [fields?, mapM_key_eq_some_iff.mpr rfl]
  rfl

theorem fields?_eq_none {ms : List Member} (h : ¬ TextKeys ms) (names : List (List Char)) :
    (object ms).fields? names = none := by
  have broken : (ms.mapM fun (k, j) => k.map (·, j)) = none :=
    Option.eq_none_iff_forall_ne_some.mpr fun ns hns =>
      h (textKeys_iff.mpr ⟨ns, mapM_key_eq_some_iff.mp hns⟩)
  rw [fields?, broken]
  rfl

end Json

theorem text?_eq_some_iff {j : Json} {t : List Char} :
    j.text? = some t ↔ j = .string (some t) := by
  cases j <;> simp [Json.text?]

theorem nullableText?_eq_some_iff (j : Json) (t : Option (List Char)) :
    nullableText? j = some t ↔ MeansText j t := by
  constructor
  · intro h
    rw [nullableText?.eq_def] at h
    split at h
    · obtain rfl := Option.some.inj h
      exact .none
    · obtain ⟨t, ht, rfl⟩ := Option.map_eq_some_iff.mp h
      obtain rfl := text?_eq_some_iff.mp ht
      exact .some
  · rintro (_ | _) <;> rfl

theorem path?_eq_some_iff (j : Json) (p : Path) :
    j.text?.map Path.mk = some p ↔ MeansPath j p := by
  constructor
  · intro h
    obtain ⟨t, ht, rfl⟩ := Option.map_eq_some_iff.mp h
    obtain rfl := text?_eq_some_iff.mp ht
    exact .mk
  · rintro ⟨⟩
    rfl

theorem RoutingOptions.ofJson?_named_iff {o : RoutingOptions} {ns : List (List Char × Json)} :
    ofJson? (.object (ns.map named)) = some o ↔ o.Given (ns.map named) := by
  simp only [ofJson?, fields?_named, fieldNames, List.mapM_cons, List.mapM_nil, Option.pure_def,
    Option.bind_eq_bind, Option.bind_eq_some_iff, Option.some.injEq, Option.bind_assoc,
    Option.bind_some]
  constructor
  · rintro ⟨v, redirect, w, file, x, pages, _, hv, _, hw, _, hx, rfl⟩
    exact ⟨(sets_iff nullableText?_eq_some_iff).mpr ⟨v, redirect, hv⟩,
      (sets_iff path?_eq_some_iff).mpr ⟨w, file, hw⟩, (sets_iff path?_eq_some_iff).mpr ⟨x, pages, hx⟩⟩
  · rintro ⟨redirectTo, filePath, pagesPath⟩
    obtain ⟨v, redirect, hv⟩ := (sets_iff nullableText?_eq_some_iff).mp redirectTo
    obtain ⟨w, file, hw⟩ := (sets_iff path?_eq_some_iff).mp filePath
    obtain ⟨x, pages, hx⟩ := (sets_iff path?_eq_some_iff).mp pagesPath
    exact ⟨v, redirect, w, file, x, pages, _, hv, _, hw, _, hx, rfl⟩

theorem RoutingOptions.ofJson?_object_iff {o : RoutingOptions} {ms : List Member} :
    ofJson? (.object ms) = some o ↔ TextKeys ms ∧ o.Given ms := by
  by_cases h : TextKeys ms
  · obtain ⟨ns, rfl⟩ := textKeys_iff.mp h
    rw [ofJson?_named_iff, and_iff_right h]
  · rw [ofJson?, fields?_eq_none h]
    exact iff_of_false nofun fun hand => h hand.1

theorem RoutingOptions.Given.not_duplicate {o : RoutingOptions} {ms : List Member} (h : o.Given ms)
    {name : List Char} (field : name ∈ fieldNames) :
    ¬ (ms.map Prod.fst).Duplicate (some name) := by
  obtain rfl | rfl | rfl : name = _ ∨ name = _ ∨ name = _ := by
    simpa [fieldNames] using field
  · exact h.redirectTo.not_duplicate
  · exact h.filePath.not_duplicate
  · exact h.pagesPath.not_duplicate

namespace LoaderOptions

/-- With routing options as they are read, whether from an object or not. -/
theorem ofJson?_object_iff {o : LoaderOptions} {ms : List Member} :
    ofJson? (.object ms) = some o ↔ TextKeys ms ∧
      Sets "inlineStylesExtension".toList none MeansText o.inlineStylesExtension ms ∧
      Sets "routing".toList {} (fun j r => RoutingOptions.ofJson? j = some r) o.routing ms := by
  by_cases h : TextKeys ms
  · obtain ⟨ns, rfl⟩ := textKeys_iff.mp h
    rw [and_iff_right h]
    simp only [ofJson?, fields?_named, fieldNames, List.mapM_cons, List.mapM_nil, Option.pure_def,
      Option.bind_eq_bind, Option.bind_eq_some_iff, Option.some.injEq, Option.bind_assoc,
      Option.bind_some]
    constructor
    · rintro ⟨v, ext, w, routing, _, hv, _, hw, rfl⟩
      exact ⟨(sets_iff nullableText?_eq_some_iff).mpr ⟨v, ext, hv⟩,
        (sets_iff fun _ _ => Iff.rfl).mpr ⟨w, routing, hw⟩⟩
    · rintro ⟨ext, routing⟩
      obtain ⟨v, ext, hv⟩ := (sets_iff nullableText?_eq_some_iff).mp ext
      obtain ⟨w, routing, hw⟩ := (sets_iff fun _ _ => Iff.rfl).mp routing
      exact ⟨v, ext, w, routing, _, hv, _, hw, rfl⟩
  · rw [ofJson?, fields?_eq_none h]
    exact iff_of_false nofun fun hand => h hand.1

theorem ofJson?_of_given {o : LoaderOptions} {ms : List Member} (h : o.Given ms)
    (keys : KeysWhole ms) : ofJson? (.object ms) = some o := by
  refine ofJson?_object_iff.mpr ⟨keys.outer, h.inlineStylesExtension, h.routing.imp ?_⟩
  rintro _ hmem ⟨inner, rfl, given⟩
  exact RoutingOptions.ofJson?_object_iff.mpr ⟨keys.inner inner hmem, given⟩

theorem keysWhole_of_ofJson? {o : LoaderOptions} {ms : List Member}
    (h : ofJson? (.object ms) = some o) : KeysWhole ms := by
  obtain ⟨keys, -, routing⟩ := ofJson?_object_iff.mp h
  exact ⟨keys, fun inner hmem =>
    (RoutingOptions.ofJson?_object_iff.mp (routing.means_of_mem hmem)).1⟩

theorem not_repeats_of_ofJson? {o : LoaderOptions} {ms : List Member}
    (h : ofJson? (.object ms) = some o) : ¬ Repeats ms := by
  obtain ⟨-, ext, routing⟩ := ofJson?_object_iff.mp h
  rintro (⟨field, twice⟩ | ⟨field, hmem, twice⟩)
  · obtain rfl | rfl : _ = _ ∨ _ = _ := by simpa [fieldNames] using field
    · exact ext.not_duplicate twice
    · exact routing.not_duplicate twice
  · exact (RoutingOptions.ofJson?_object_iff.mp (routing.means_of_mem hmem)).2.not_duplicate field
      twice

theorem read_eq_setup {s : List Char} (h : ∀ o, ofText? s ≠ some o) :
    ∃ cause, read s = .error (.setup cause) := by
  rw [read, Option.eq_none_iff_forall_ne_some.mpr h]
  exact ⟨_, rfl⟩

theorem ofText?_of_spells {ms : List Member} {s : List Char} (h : SpellsText (.object ms) s) :
    ofText? s = ofJson? (.object ms) := by
  have hread := ofText?_append_blank h nofun (t := []) nofun
  rw [List.append_nil] at hread
  rw [ofText?, hread]
  rfl

theorem read_broken {ms : List Member} {s : List Char} (text : SpellsText (.object ms) s)
    (broken : ¬ KeysWhole ms) : ∃ cause, read s = .error (.setup cause) := by
  refine read_eq_setup fun o hread => broken (keysWhole_of_ofJson? (o := o) ?_)
  rwa [← ofText?_of_spells text]

/-- Options are read from any text for an object that gives them, if all keys are texts and nothing
but blanks follows. An object that repeats a field is refused, whatever it gives. -/
theorem read_of_given {o : LoaderOptions} {ms : List Member} {s : List Char} (given : o.Given ms)
    (text : SpellsText (.object ms) s) :
    (KeysWhole ms → read s = .ok o) ∧
    (¬ KeysWhole ms → ∃ cause, read s = .error (.setup cause)) ∧
    (∀ t, ¬ Blank t → ∃ cause, read (s ++ t) = .error (.setup cause)) ∧
    ∀ ms' s', SpellsText (.object ms') s' → Repeats ms' →
      ∃ cause, read s' = .error (.setup cause) := by
  refine ⟨fun keys => ?_, fun broken => ?_, fun t ht => ?_, fun ms' s' text' twice => ?_⟩
  · rw [read, ofText?_of_spells text, ofJson?_of_given given keys]
  · exact read_broken text broken
  · refine read_eq_setup fun o' hread => ?_
    rw [ofText?, ofText?_append_eq_none text nofun ht] at hread
    cases hread
  · refine read_eq_setup fun o' hread => not_repeats_of_ofJson? (o := o') ?_ twice
    rwa [← ofText?_of_spells text']

namespace Trial

def options : LoaderOptions := { routing := { redirectTo := some "/home".toList } }

/-- The members of an object that gives the routing options, with one of the standard values. -/
def routing : List Member :=
  [(some "redirectTo".toList, .string (some "/home".toList)),
    (some "pagesPath".toList, .string (some "src/pages".toList))]

def members : List Member :=
  [(some "x y".toList, .array [.number, .object [(none, .null)]]),
    (some "routing".toList, .object routing)]

def text : List Char :=
  (" \x7b\n\"x y\" : [-0.5, \x7b\"\\ud83d\":null\x7d],\"\\u0072outing\": " ++
    "\x7b\"redirectTo\":\"\\/home\",\"pagesPath\":\"src/pages\"\x7d \x7d\n").toList

def members_twice : List Member :=
  [(some "routing".toList, .null), (some "routing".toList, .null)]

def text_twice : List Char := "\x7b\"routing\":null,\"routing\":null\x7d".toList

theorem given_routing : options.routing.Given routing where
  redirectTo := by
    show Sets _ _ _ _ ([] ++ (_, _) :: _)
    exact .given .some (by decide) (by decide)
  filePath := .omitted (by decide)
  pagesPath := by
    show Sets _ _ _ _ ([_] ++ (_, _) :: _)
    exact .given .mk (by decide) (by decide)

theorem given_members : options.Given members where
  inlineStylesExtension := .omitted (by decide)
  routing := by
    show Sets _ _ _ _ ([_] ++ (_, _) :: _)
    exact .given ⟨routing, rfl, given_routing⟩ (by decide) (by decide)

theorem keysWhole_members : KeysWhole members where
  outer := by decide
  inner inner hmem := by
    rcases List.mem_cons.mp hmem with heq | hmem
    · exact absurd (Prod.mk.inj heq).1 (by decide)
    · obtain rfl := object.inj (Prod.mk.inj (List.mem_singleton.mp hmem)).2
      decide

theorem spells_unknown : Spells (.value (.array [.number, .object [(none, .null)]]))
    "[-0.5, \x7b\"\\ud83d\":null\x7d]".toList := by
  have fraction : SpellsFraction ['.', '5'] := .some (by decide)
  have number : SpellsNumber "-0.5".toList :=
    .mk (by decide : ['-'] ∈ [[], ['-']]) .zero fraction .none
  have half : SpellsString none "\"\\ud83d\"".toList :=
    spellsString_half (n := 0xD83D) (by decide) (@SpellsUnit.hex 'd' '8' '3' 'd' 13 8 3 13
      (by decide) (by decide) (by decide) (by decide))
  have object : Spells (.value (.object [(none, .null)])) "\x7b\"\\ud83d\":null\x7d".toList :=
    .object (.lastMember (a := []) (b := []) (c := []) (d := []) nofun half nofun nofun .null nofun)
  exact .array (.item (a := []) (b := []) nofun (.number number) nofun
    (.lastItem (a := [' ']) (b := []) (by decide) object nofun))

theorem spells_routing : Spells (.value (.object routing))
    "\x7b\"redirectTo\":\"\\/home\",\"pagesPath\":\"src/pages\"\x7d".toList := by
  have redirectTo := spellsString_plain (t := "redirectTo".toList) (by decide)
  have home : SpellsString (some "/home".toList) "\"\\/home\"".toList :=
    .whole (.cons (.short (e := '/') (c := '/') (by decide))
      (spellsUnits_plain (t := "home".toList) (by decide))) (denotes_map_toNat "/home".toList)
  have pagesPath := spellsString_plain (t := "pagesPath".toList) (by decide)
  have pages := spellsString_plain (t := "src/pages".toList) (by decide)
  exact .object (.member (a := []) (b := []) (c := []) (d := []) nofun redirectTo nofun nofun
    (.string home) nofun (.lastMember (a := []) (b := []) (c := []) (d := []) nofun pagesPath nofun
      nofun (.string pages) nofun))

theorem spellsText_members : SpellsText (.object members) text := by
  have unknown := spellsString_plain (t := "x y".toList) (by decide)
  have key : SpellsString (some "routing".toList) "\"\\u0072outing\"".toList :=
    .whole (.cons (@SpellsUnit.hex '0' '0' '7' '2' 0 0 7 2 (by decide) (by decide) (by decide)
      (by decide)) (spellsUnits_plain (t := "outing".toList) (by decide)))
      (denotes_map_toNat "routing".toList)
  exact .mk (a := [' ']) (b := ['\n']) (by decide) (.object (.member (a := ['\n']) (b := [' '])
    (c := [' ']) (d := []) (by decide) unknown (by decide) (by decide) spells_unknown nofun
    (.lastMember (a := []) (b := []) (c := [' ']) (d := [' ']) nofun key nofun (by decide)
      spells_routing (by decide)))) (by decide)

theorem spellsText_twice : SpellsText (.object members_twice) text_twice := by
  have key := spellsString_plain (t := "routing".toList) (by decide)
  exact .mk (a := []) (b := []) nofun (.object (.member (a := []) (b := []) (c := []) (d := [])
    nofun key nofun nofun .null nofun (.lastMember (a := []) (b := []) (c := []) (d := []) nofun
      key nofun nofun .null nofun))) nofun

end Trial

/-- Blanks, escapes, a key elsewhere that is no text, and a standard value left out; then a brace too
many, and a field that is repeated. -/
theorem read_of_given_trial :
    Trial.options.Given Trial.members ∧ SpellsText (.object Trial.members) Trial.text ∧
      KeysWhole Trial.members ∧ read Trial.text = .ok Trial.options ∧
      (∃ cause, read (Trial.text ++ ['\x7d']) = .error (.setup cause)) ∧
      ∃ cause, read Trial.text_twice = .error (.setup cause) := by
  obtain ⟨whole, -, followed, repeated⟩ :=
    read_of_given Trial.given_members Trial.spellsText_members
  exact ⟨Trial.given_members, Trial.spellsText_members, Trial.keysWhole_members,
    whole Trial.keysWhole_members, followed _ (by decide),
    repeated _ _ Trial.spellsText_twice (.outer (by decide : "routing".toList ∈ fieldNames)
      (List.duplicate_cons_iff.mpr (.inl ⟨rfl, List.mem_singleton_self _⟩)))⟩

/-- A key that is half of a surrogate pair is no text, so the object gives no options, though none of
its fields is set by that member. -/
theorem half_key_is_refused :
    ({} : LoaderOptions).Given [(none, .number)] ∧
      SpellsText (.object [(none, .number)]) "\x7b\"\\ud800\":0\x7d".toList ∧
      read "\x7b\"\\ud800\":0\x7d".toList ≠ .ok {} := by
  have half : SpellsString none "\"\\ud800\"".toList :=
    spellsString_half (n := 0xD800) (by decide) (@SpellsUnit.hex 'd' '8' '0' '0' 13 8 0 0
      (by decide) (by decide) (by decide) (by decide))
  have number : SpellsNumber ['0'] := .mk (by decide : [] ∈ [[], ['-']]) .zero .none .none
  have text : SpellsText (.object [(none, .number)]) "\x7b\"\\ud800\":0\x7d".toList :=
    .mk (a := []) (b := []) nofun (.object (.lastMember (a := []) (b := []) (c := []) (d := [])
      nofun half nofun nofun (.number number) nofun)) nofun
  refine ⟨⟨.omitted (by decide), .omitted (by decide)⟩, text, ?_⟩
  obtain ⟨cause, hread⟩ := read_broken text fun h => h.outer _ List.mem_cons_self rfl
  rw [hread]
  exact nofun

end LoaderOptions

end LiveLoader
