import Mathlib.Data.List.FinRange
import Mathlib.Data.List.Indexes
import LiveLoader.Proofs.Text.Pieces
import LiveLoader.Proofs.Text.Quoted
import LiveLoader.Routes.Table
import LiveLoader.Text.Identifier

/-!
# Reading the route table back

The text of a route table is read line by line, and its literals as scripts read them. No text in a
descriptor ends its literal or its line, so what is read is what the table was written for.
-/

namespace LiveLoader.Routes

open Text

/-- A binding that a module imports under another name. -/
structure Import where
  name : List Char
  binding : List Char
  specifier : List Char
  deriving DecidableEq, Repr

inductive Row
  | redirect (pattern target pathMatch : List Char)
  /-- A route whose component is imported on demand, with what `binding` holds spread into it. -/
  | route (pattern component binding : List Char)
  deriving DecidableEq, Repr

structure Table where
  imports : List Import
  rows : List Row
  deriving DecidableEq, Repr

/-- The module from which a name in the table is imported. -/
def Table.origin? (t : Table) (binding : List Char) : Option (List Char) :=
  (t.imports.find? fun i => i.binding = binding).map Import.specifier

/-- What follows an expected text. -/
def after? (t : String) (s : List Char) : Option (List Char) := s.dropPrefix? t.toList

/-- The identifier that a text begins with, and what follows it. -/
def identifier? (s : List Char) : Option (List Char × List Char) :=
  let name := s.takeWhile isIdentifierPart
  if name.head?.any isIdentifierStart then some (name, s.drop name.length) else none

/-- What a reader makes of the lines in front that it can read, and the lines after them. -/
def readWhile (read? : List Char → Option α) : List (List Char) → List α × List (List Char)
  | [] => ([], [])
  | line :: lines =>
    match read? line with
    | none => ([], line :: lines)
    | some a =>
      let (as, rest) := readWhile read? lines
      (a :: as, rest)

def Import.read? (line : List Char) : Option Import := do
  let rest ← after? "import \x7b" line
  let (name, rest) ← identifier? rest
  let rest ← after? " as " rest
  let (binding, rest) ← identifier? rest
  let rest ← after? "\x7d from " rest
  let (specifier, rest) ← Quoted.decode? rest
  if rest = ";".toList then some ⟨name, binding, specifier⟩ else none

/-- What follows the pattern of a redirect. -/
def Row.readRedirect? (pattern rest : List Char) : Option Row := do
  let rest ← after? ", redirectTo: " rest
  let (target, rest) ← Quoted.decode? rest
  let rest ← after? ", pathMatch: " rest
  let (pathMatch, rest) ← Quoted.decode? rest
  if rest = " \x7d,".toList then some (.redirect pattern target pathMatch) else none

/-- What follows the pattern of a route. -/
def Row.readRoute? (pattern rest : List Char) : Option Row := do
  let rest ← after? ", loadComponent: () => import(" rest
  let (component, rest) ← Quoted.decode? rest
  let rest ← after? "), ..." rest
  let (binding, rest) ← identifier? rest
  if rest = " \x7d,".toList then some (.route pattern component binding) else none

def Row.read? (line : List Char) : Option Row := do
  let rest ← after? "  \x7b path: " line
  let (pattern, rest) ← Quoted.decode? rest
  readRedirect? pattern rest <|> readRoute? pattern rest

/-- The line that begins the list of rows. -/
def opening : List Char := "export const routes = [".toList

def closing : List Char := "];".toList

/-- The imports, and after blank lines the list of rows, which nothing follows. -/
def Table.read? (text : List Char) : Option Table :=
  let (imports, lines) := readWhile Import.read? (pieces '\n' text)
  match lines.dropWhile List.isEmpty with
  | [] => none
  | first :: lines =>
    let (rows, lines) := readWhile Row.read? lines
    if first = opening ∧ lines = [closing, []] then some ⟨imports, rows⟩ else none

def Import.line (i : Import) : List Char :=
  "import \x7b".toList ++ i.name ++ " as ".toList ++ i.binding ++ "\x7d from ".toList
    ++ Quoted.encode i.specifier ++ ";".toList

def Row.line : Row → List Char
  | .redirect pattern target pathMatch =>
    "  \x7b path: ".toList ++ Quoted.encode pattern ++ ", redirectTo: ".toList
      ++ Quoted.encode target ++ ", pathMatch: ".toList ++ Quoted.encode pathMatch
      ++ " \x7d,".toList
  | .route pattern component binding =>
    "  \x7b path: ".toList ++ Quoted.encode pattern ++ ", loadComponent: () => import(".toList
      ++ Quoted.encode component ++ "), ...".toList ++ binding ++ " \x7d,".toList

def Table.lines (t : Table) : List (List Char) :=
  t.imports.map Import.line ++ (if t.imports.isEmpty then [] else [[]])
    ++ opening :: (t.rows.map Row.line ++ [closing])

/-- The text of a table is its lines, each with a line feed behind it. -/
def Table.text (t : Table) : List Char := t.lines.flatMap (· ++ ['\n'])

def Descriptor.toImport (d : Descriptor) : Import :=
  ⟨"routerMeta".toList, d.metaBinding, d.metaImport⟩

def Descriptor.toRow (d : Descriptor) : Row :=
  .route d.urlPattern d.componentImport d.metaBinding

/-- The table that descriptors and a redirect stand for. -/
def tableOf (ds : List Descriptor) (redirectTo : Option (List Char)) : Table where
  imports := ds.map Descriptor.toImport
  rows := (redirectTo.map fun target => .redirect [] target "full".toList).toList
    ++ ds.map Descriptor.toRow

theorem Descriptor.importLine_eq (d : Descriptor) : d.importLine = d.toImport.line ++ ['\n'] := by
  unfold importLine toImport Import.line
  simp only [List.append_assoc]
  simp

theorem Descriptor.routeLine_eq (d : Descriptor) : d.routeLine = d.toRow.line ++ ['\n'] := by
  unfold routeLine toRow Row.line
  simp only [List.append_assoc]
  simp

theorem redirectLine_eq (target : List Char) :
    redirectLine target = (Row.redirect [] target "full".toList).line ++ ['\n'] := by
  unfold redirectLine Row.line
  simp only [List.append_assoc]
  simp [Quoted.encode, Quoted.escape]

/-- What is written for each item of a list is a line for each. -/
theorem flatMap_lines {write line : α → List Char} (h : ∀ a, write a = line a ++ ['\n'])
    (as : List α) : as.flatMap write = (as.map line).flatMap (· ++ ['\n']) := by
  rw [List.flatMap_map]
  exact List.flatMap_congr fun a _ => h a

theorem render_eq (ds : List Descriptor) (redirectTo : Option (List Char)) :
    render ds redirectTo = (tableOf ds redirectTo).text := by
  have himports := flatMap_lines Descriptor.importLine_eq ds
  have hroutes := flatMap_lines Descriptor.routeLine_eq ds
  have hredirect : (redirectTo.map redirectLine).getD [] =
      ((redirectTo.map fun target => Row.redirect [] target "full".toList).toList.map
        Row.line).flatMap (· ++ ['\n']) := by
    cases redirectTo with
    | none => rfl
    | some target => exact (redirectLine_eq target).trans (List.append_nil _).symm
  have hblank : (if ds.isEmpty then [] else ['\n']) =
      (if ds.isEmpty then [] else [[]]).flatMap (· ++ ['\n']) := by
    split <;> rfl
  have hopening : "export const routes = [\n".toList = opening ++ ['\n'] := by rfl
  have hclosing : "];\n".toList = closing ++ ['\n'] := by rfl
  unfold render Table.text Table.lines tableOf
  rw [himports, hroutes, hredirect, hblank, hopening, hclosing]
  simp [Function.comp_def]

/-- A name that begins as an identifier and goes on as one. -/
structure IsIdentifier (name : List Char) : Prop where
  start : name.head?.any isIdentifierStart = true
  parts : ∀ c ∈ name, isIdentifierPart c = true

theorem identifier?_append {name rest : List Char} (h : IsIdentifier name)
    (hrest : rest.head?.any isIdentifierPart = false) :
    identifier? (name ++ rest) = some (name, rest) := by
  have htake : (name ++ rest).takeWhile isIdentifierPart = name := by
    rw [List.takeWhile_append_of_pos h.parts]
    cases rest with
    | nil => simp
    | cons c r =>
      have hc : ¬ isIdentifierPart c = true := by simpa using hrest
      rw [List.takeWhile_cons_of_neg hc, List.append_nil]
  rw [identifier?, htake, if_pos h.start, List.drop_left]

theorem after?_append (t : String) (rest : List Char) :
    after? t (t.toList ++ rest) = some rest :=
  List.dropPrefix?_append_of_beq rest (beq_self_eq_true t.toList)

/-- Lines that a reader can read, before one that it cannot read. -/
theorem readWhile_append {read? : List Char → Option α} {write : α → List Char} {as : List α}
    (hread : ∀ a ∈ as, read? (write a) = some a) {line : List Char} (hline : read? line = none)
    (lines : List (List Char)) :
    readWhile read? (as.map write ++ line :: lines) = (as, line :: lines) := by
  induction as with
  | nil => simp only [List.map_nil, List.nil_append, readWhile, hline]
  | cons a as ih =>
    simp only [List.map_cons, List.cons_append, readWhile, hread a List.mem_cons_self,
      ih fun b hb => hread b (List.mem_cons_of_mem a hb)]

/-- The names in an import are identifiers. -/
structure Import.Named (i : Import) : Prop where
  name : IsIdentifier i.name
  binding : IsIdentifier i.binding

theorem Import.read?_line {i : Import} (h : i.Named) : Import.read? i.line = some i := by
  unfold read? line
  simp only [List.append_assoc, after?_append, Option.bind_eq_bind, Option.bind_some]
  rw [identifier?_append h.name, Option.bind_some, after?_append, Option.bind_some,
    identifier?_append h.binding]
  · simp only [after?_append, Option.bind_some, Quoted.decode?_encode, if_true]
  · rfl
  · rfl

/-- What stands behind a pattern tells a route from a redirect. -/
theorem Row.readRedirect?_of_route (pattern rest : List Char) :
    readRedirect? pattern (", loadComponent: () => import(".toList ++ rest) = none := by
  rfl

theorem Row.read?_redirect (pattern target pathMatch : List Char) :
    Row.read? (line (.redirect pattern target pathMatch)) =
      some (.redirect pattern target pathMatch) := by
  unfold read? line readRedirect?
  simp only [List.append_assoc, after?_append, Option.bind_eq_bind, Option.bind_some,
    Quoted.decode?_encode, if_true]
  rfl

theorem Row.read?_route (pattern component : List Char) {binding : List Char}
    (h : IsIdentifier binding) :
    Row.read? (line (.route pattern component binding)) =
      some (.route pattern component binding) := by
  unfold read? line
  simp only [List.append_assoc, after?_append, Option.bind_eq_bind, Option.bind_some,
    Quoted.decode?_encode]
  rw [readRedirect?_of_route, readRoute?]
  simp only [after?_append, Option.bind_eq_bind, Option.bind_some, Quoted.decode?_encode]
  rw [identifier?_append h]
  · simp only [Option.bind_some, if_true]
    rfl
  · rfl

/-- The names in a row are identifiers. -/
def Row.Named : Row → Prop
  | .redirect _ _ _ => True
  | .route _ _ binding => IsIdentifier binding

theorem Row.read?_line {row : Row} (h : row.Named) : Row.read? row.line = some row := by
  cases row with
  | redirect pattern target pathMatch => exact read?_redirect pattern target pathMatch
  | route pattern component binding => exact read?_route pattern component h

theorem IsIdentifier.feed_notMem {name : List Char} (h : IsIdentifier name) : '\n' ∉ name :=
  fun hmem => absurd (h.parts _ hmem) (by decide)

theorem Import.feed_notMem_line {i : Import} (h : i.Named) : '\n' ∉ i.line := by
  unfold line
  simp [h.name.feed_notMem, h.binding.feed_notMem, Quoted.feed_notMem_encode]

theorem Row.feed_notMem_line {row : Row} (h : row.Named) : '\n' ∉ row.line := by
  unfold line
  cases row with
  | redirect pattern target pathMatch => simp [Quoted.feed_notMem_encode]
  | route pattern component binding => simp [Quoted.feed_notMem_encode, IsIdentifier.feed_notMem h]

/-- The names in a table are identifiers. -/
structure Table.Named (t : Table) : Prop where
  imports : ∀ i ∈ t.imports, i.Named
  rows : ∀ row ∈ t.rows, row.Named

theorem Table.pieces_text {t : Table} (h : t.Named) : pieces '\n' t.text = t.lines ++ [[]] := by
  refine pieces_flatMap fun line hline => ?_
  simp only [lines, List.mem_append, List.mem_cons, List.mem_map, List.mem_ite_nil_left,
    List.not_mem_nil, or_false] at hline
  obtain (⟨i, hi, rfl⟩ | ⟨-, rfl⟩) | rfl | ⟨row, hrow, rfl⟩ | rfl := hline
  · exact Import.feed_notMem_line (h.imports i hi)
  · exact List.not_mem_nil
  · decide
  · exact Row.feed_notMem_line (h.rows row hrow)
  · decide

/-- The imports end at the blank line, or at the list itself when there are none. -/
theorem Table.readWhile_imports {t : Table} (h : t.Named) (rest : List (List Char)) :
    readWhile Import.read? (t.imports.map Import.line ++
      ((if t.imports.isEmpty then [] else [[]]) ++ opening :: rest)) =
      (t.imports, (if t.imports.isEmpty then [] else [[]]) ++ opening :: rest) := by
  have hread : ∀ i ∈ t.imports, Import.read? i.line = some i :=
    fun i hi => Import.read?_line (h.imports i hi)
  split
  case isTrue => exact readWhile_append hread rfl rest
  case isFalse => exact readWhile_append hread rfl (opening :: rest)

/-- A table whose names are identifiers is read back from its text. -/
theorem Table.read?_text {t : Table} (h : t.Named) : Table.read? t.text = some t := by
  have hrows : readWhile Row.read? (t.rows.map Row.line ++ [closing, []]) =
      (t.rows, [closing, []]) :=
    readWhile_append (fun row hrow => Row.read?_line (h.rows row hrow)) rfl [[]]
  have hblank (rest : List (List Char)) : ((if t.imports.isEmpty then [] else [[]]) ++
      opening :: rest).dropWhile List.isEmpty = opening :: rest := by
    split <;> rfl
  unfold read?
  rw [pieces_text h, lines]
  simp only [List.append_assoc, List.cons_append, List.nil_append, readWhile_imports h, hblank,
    hrows, and_self, if_true]

/-- The name under which the metadata of a page is imported. -/
def binding (order : Nat) : List Char := 'r' :: (toString order).toList

theorem binding_eq (order : Nat) : binding order = 'r' :: Nat.toDigits 10 order := by
  rw [binding, Nat.toString_eq_repr, Nat.toList_repr]

theorem binding_injective : Function.Injective binding := by
  intro i j h
  have hdigits : Nat.toDigits 10 i = Nat.toDigits 10 j := by
    rw [binding_eq, binding_eq] at h
    exact (List.cons.inj h).2
  calc i = Nat.ofDigitChars 10 (Nat.toDigits 10 i) 0 := Nat.ofDigitChars_ten_toDigits.symm
    _ = Nat.ofDigitChars 10 (Nat.toDigits 10 j) 0 := by rw [hdigits]
    _ = j := Nat.ofDigitChars_ten_toDigits

theorem isIdentifierPart_of_isDigit {c : Char} (h : c.isDigit = true) :
    isIdentifierPart c = true := by
  have hle : c.toNat ≤ '9'.toNat := (Char.isDigit_iff_toNat.mp h).2
  have hascii : c.toNat < 128 := Nat.lt_of_le_of_lt hle (by decide)
  simp [isIdentifierPart, hascii, Char.isAlphanum, h]

theorem isIdentifier_binding (order : Nat) : IsIdentifier (binding order) where
  start := by rfl
  parts := by
    intro c hc
    rw [binding_eq] at hc
    rcases List.mem_cons.mp hc with rfl | hc
    · decide
    · exact isIdentifierPart_of_isDigit (Nat.isDigit_of_mem_toDigits (by decide) (by decide) hc)

/-- The descriptors bind the metadata by their numbers. -/
def Numbered (ds : List Descriptor) : Prop := ∀ d ∈ ds, d.metaBinding = binding d.order

theorem numbered_descriptors (pages : List Page) (dir : Path) :
    Numbered (descriptors pages dir) := by
  intro d hd
  obtain ⟨i, hi, rfl⟩ := List.mem_mapIdx.mp hd
  rfl

theorem Numbered.isIdentifier {ds : List Descriptor} (h : Numbered ds) {d : Descriptor}
    (hd : d ∈ ds) : IsIdentifier d.metaBinding := by
  rw [h d hd]
  exact isIdentifier_binding d.order

theorem named_tableOf {ds : List Descriptor} (h : Numbered ds) (redirectTo : Option (List Char)) :
    (tableOf ds redirectTo).Named where
  imports := by
    intro i hi
    obtain ⟨d, hd, rfl⟩ := List.mem_map.mp hi
    have hname : IsIdentifier "routerMeta".toList := ⟨rfl, List.all_eq_true.mp rfl⟩
    exact ⟨hname, h.isIdentifier hd⟩
  rows := by
    intro row hrow
    rcases List.mem_append.mp hrow with hrow | hrow
    · cases redirectTo with
      | none => cases hrow
      | some target =>
        rw [List.mem_singleton.mp hrow]
        trivial
    · obtain ⟨d, hd, rfl⟩ := List.mem_map.mp hrow
      exact h.isIdentifier hd

theorem read?_render {ds : List Descriptor} (h : Numbered ds) (redirectTo : Option (List Char)) :
    Table.read? (render ds redirectTo) = some (tableOf ds redirectTo) := by
  rw [render_eq, Table.read?_text (named_tableOf h redirectTo)]

/-- A numbered descriptor is known from its import and its route. -/
theorem Descriptor.eq_of_toImport_of_toRow {d d' : Descriptor}
    (h : d.metaBinding = binding d.order) (h' : d'.metaBinding = binding d'.order)
    (himport : d.toImport = d'.toImport) (hrow : d.toRow = d'.toRow) : d = d' := by
  obtain ⟨-, hbinding, hmeta⟩ := Import.mk.inj himport
  obtain ⟨hpattern, hcomponent, -⟩ := Row.route.inj hrow
  have horder : d.order = d'.order := binding_injective (h.symm.trans (hbinding.trans h'))
  cases d
  cases d'
  exact (mk.injEq ..).mpr ⟨hpattern, hcomponent, hmeta, hbinding, horder⟩

theorem tableOf_inj {ds ds' : List Descriptor} (h : Numbered ds) (h' : Numbered ds')
    {redirectTo redirectTo' : Option (List Char)} :
    tableOf ds redirectTo = tableOf ds' redirectTo' ↔ ds = ds' ∧ redirectTo = redirectTo' := by
  constructor
  · intro heq
    obtain ⟨himports, hrows⟩ := (Table.mk.injEq ..).mp heq
    have hlength : ds.length = ds'.length := by simpa using congrArg List.length himports
    obtain ⟨hredirect, hroutes⟩ := List.append_inj' hrows (by simpa using hlength)
    constructor
    · refine List.ext_getElem hlength fun i hi hi' => ?_
      refine Descriptor.eq_of_toImport_of_toRow (h _ (List.getElem_mem hi))
        (h' _ (List.getElem_mem hi')) ?_ ?_
      · simpa [hi, hi'] using congrArg (·[i]?) himports
      · simpa [hi, hi'] using congrArg (·[i]?) hroutes
    · cases redirectTo <;> cases redirectTo' <;> simp_all
  · rintro ⟨rfl, rfl⟩
    rfl

/-- Different descriptors and redirects never have the same text. -/
theorem render_inj {ds ds' : List Descriptor} (h : Numbered ds) (h' : Numbered ds')
    {redirectTo redirectTo' : Option (List Char)} :
    render ds redirectTo = render ds' redirectTo' ↔ ds = ds' ∧ redirectTo = redirectTo' := by
  rw [← tableOf_inj h h']
  constructor
  · intro heq
    have hread := read?_render h redirectTo
    rw [heq, read?_render h' redirectTo'] at hread
    exact (Option.some.inj hread).symm
  · intro heq
    rw [render_eq, render_eq, heq]

theorem map_descriptors (f : Descriptor → α) (pages : List Page) (dir : Path) :
    (descriptors pages dir).map f = pages.mapIdx fun i page => f (.ofPage dir i page) :=
  List.ext_getElem (by simp [descriptors]) (by simp [descriptors])

section

variable {xs : List α} {f : Nat → α → Import} (hf : ∀ i x, (f i x).binding = binding i)

include hf

theorem nodup_bindings : ((xs.mapIdx f).map Import.binding).Nodup := by
  rw [List.mapIdx_eq_ofFn, List.map_ofFn, List.nodup_ofFn]
  intro i j hij
  simp only [Function.comp_apply, hf] at hij
  exact Fin.ext (binding_injective hij)

theorem Table.origin?_binding {t : Table} (h : t.imports = xs.mapIdx f) (i : Fin xs.length) :
    t.origin? (binding i) = some (f i xs[i]).specifier := by
  have hfind : (xs.mapIdx f).find? (fun x => x.binding = binding i) = some (f i xs[i]) := by
    rw [List.find?_eq_some_iff_getElem]
    refine ⟨decide_eq_true (hf i xs[i]), i, by simp, by simp, fun j hj => ?_⟩
    have hne : binding j ≠ binding i := binding_injective.ne (Nat.ne_of_lt hj)
    simp [hf, hne]
  rw [origin?, h, hfind, Option.map_some]

end

/-- The text that is written for pages reads as one import for each page, under names that differ,
then the redirect if there is a target, and one route for each page, into which the metadata of that
page is spread. The descriptors and the redirect are known from the text. -/
theorem read?_render_descriptors (pages : List Page) (dir : Path)
    (redirectTo : Option (List Char)) :
    ∃ table, Table.read? (render (descriptors pages dir) redirectTo) = some table ∧
      table.imports = pages.mapIdx (fun i page =>
        ⟨"routerMeta".toList, binding i, specifier dir page.file⟩) ∧
      (table.imports.map Import.binding).Nodup ∧
      table.rows = (redirectTo.map fun target => .redirect [] target "full".toList).toList ++
        pages.mapIdx (fun i page =>
          .route (urlPattern page.key) (specifier dir (page.file.withExtension [])) (binding i)) ∧
      (∀ i : Fin pages.length, table.origin? (binding i) = some (specifier dir pages[i].file)) ∧
      ∀ pages' dir' redirectTo',
        render (descriptors pages' dir') redirectTo' = render (descriptors pages dir) redirectTo ↔
          descriptors pages' dir' = descriptors pages dir ∧ redirectTo' = redirectTo := by
  have himports : (tableOf (descriptors pages dir) redirectTo).imports =
      pages.mapIdx fun i page => ⟨"routerMeta".toList, binding i, specifier dir page.file⟩ :=
    map_descriptors Descriptor.toImport pages dir
  have hroutes : (descriptors pages dir).map Descriptor.toRow = pages.mapIdx fun i page =>
      .route (urlPattern page.key) (specifier dir (page.file.withExtension [])) (binding i) :=
    map_descriptors Descriptor.toRow pages dir
  refine ⟨_, read?_render (numbered_descriptors pages dir) redirectTo, himports, ?_, ?_, ?_, ?_⟩
  · rw [himports]
    exact nodup_bindings fun i page => rfl
  · rw [tableOf, hroutes]
  · exact Table.origin?_binding (fun i page => rfl) himports
  · intro pages' dir' redirectTo'
    exact render_inj (numbered_descriptors pages' dir') (numbered_descriptors pages dir)

/-- A quote in the name of a page and a line break in the redirect stay inside their literals. -/
example :
    Table.read? (render (descriptors [⟨"/it's".toList, "/p/it's.ts"⟩] "/") (some "/a\n".toList)) =
      some ⟨[⟨"routerMeta".toList, "r0".toList, "./p/it's.ts".toList⟩],
        [.redirect [] "/a\n".toList "full".toList,
          .route "it's".toList "./p/it's".toList "r0".toList]⟩ := by
  decide +kernel

end LiveLoader.Routes
