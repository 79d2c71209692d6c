import LiveLoader.Proofs.Routes.Specifier

/-!
# The two imports of a page

A page is imported by its file and by its path without extension. Where the way to the file goes
down to a name, the way to the path without extension goes down to the stem of that name, and the two
specifiers differ in the extension alone. Only where one of the two lies at or above the directory,
its way does not end with a name, and the specifiers name different modules.
-/

namespace LiveLoader

open Text

namespace Path

/-- Two parted lists stay parted when the first is lengthened, unless it then begins the second. -/
theorem Parted.concat {as bs : List α} {a : α} (h : Parted as bs) (hnot : ¬ as ++ [a] <+: bs) :
    Parted (as ++ [a]) bs := by
  cases as with
  | cons b as => exact h
  | nil =>
    intro b hb hhead
    obtain ⟨rest, rfl⟩ := List.head?_eq_some_iff.mp hhead
    rw [← Option.some.inj hb] at hnot
    exact hnot ⟨rest, rfl⟩

end Path

namespace Routes

/-- What stands behind a specifier belongs to its last name. -/
theorem directions_concat (steps : Nat) (names : List (List Char)) (name e : List Char) :
    directions steps (names ++ [name]) ++ e = directions steps (names ++ [name ++ e]) := by
  unfold directions wayText
  rw [List.append_assoc, ← List.append_assoc (List.replicate _ _), joinPieces_concat_append,
    List.append_assoc]

theorem wayText_succ {steps : Nat} {names : List (List Char)} (h : steps ≠ 0 ∨ names ≠ []) :
    wayText (steps + 1) names = "../".toList ++ wayText steps names := by
  have hne : List.replicate steps ['.', '.'] ++ names ≠ [] := by
    rw [Ne, List.append_eq_nil_iff, List.replicate_eq_nil_iff]
    tauto
  unfold wayText
  rw [List.replicate_succ, List.cons_append, joinPieces_cons _ hne]
  rfl

theorem length_directions_nil (steps : Nat) : (directions steps []).length ≤ 3 * steps + 2 := by
  have hway : (wayText steps []).length ≤ 3 * steps := by
    induction steps with
    | zero => simp [wayText, joinPieces]
    | succ k ih =>
      by_cases hk : k = 0
      · subst hk
        decide
      · rw [wayText_succ (.inl hk), List.length_append]
        simp
        omega
  unfold directions
  rw [List.length_append]
  split <;> simp <;> omega

theorem length_directions_climb (steps : Nat) (name : List Char) :
    (directions (steps + 1) [name]).length = 3 * steps + 3 + name.length := by
  have hway (k : Nat) : (wayText k [name]).length = 3 * k + name.length := by
    induction k with
    | zero => simp [wayText, joinPieces]
    | succ k ih =>
      rw [wayText_succ (.inr (List.cons_ne_nil _ _)), List.length_append, ih]
      simp
      omega
  rw [directions, if_neg (Nat.succ_ne_zero steps), List.nil_append, hway]
  omega

/-- From below a file the way climbs to it, and ends with no name. -/
theorem specifier_of_above {dir file : Path} (hdir : dir.IsDirect) (hfile : file.IsDirect)
    (hslash : ∀ name ∈ file.normal.names, '\\' ∉ name) {rest : List (List Char)}
    (h : dir.normal.names = file.normal.names ++ rest) :
    specifier dir file = directions rest.length [] :=
  specifier_of_parted hdir hfile hslash h (List.append_nil _).symm (by simp [Path.Parted])

/-- Of two files in one directory, the way to one that lies at or above the module's directory is
shorter by a step and a name than the way to the other. -/
theorem length_specifier_lt {dir near far : Path} {above : List (List Char)} {x y : List Char}
    (hdir : dir.IsDirect) (hnear : near.IsDirect) (hfar : far.IsDirect)
    (hnearslash : ∀ name ∈ near.normal.names, '\\' ∉ name)
    (hfarslash : ∀ name ∈ far.normal.names, '\\' ∉ name)
    (hx : near.normal.names = above ++ [x]) (hy : far.normal.names = above ++ [y]) (hne : x ≠ y)
    (h : near.normal.names <+: dir.normal.names) :
    (specifier dir near).length + y.length < (specifier dir far).length := by
  obtain ⟨rest, hrest⟩ := h
  have hb : dir.normal.names = above ++ (x :: rest) := by
    rw [← hrest, hx]
    simp
  have hparted : Path.Parted [y] (x :: rest) := by simpa [Path.Parted] using hne
  have hshort := length_directions_nil rest.length
  rw [specifier_of_above hdir hnear hnearslash hrest.symm,
    specifier_of_parted hdir hfar hfarslash hb hy hparted, List.length_cons,
    length_directions_climb]
  omega

/-- The specifiers of a file and of its path without extension differ in the extension alone just if
neither of the two lies at or above the directory. -/
theorem specifier_stem_iff {dir file bare : Path} {above : List (List Char)} {stem ext : List Char}
    (hdir : dir.IsDirect) (hfile : file.IsDirect) (hbare : bare.IsDirect)
    (hfileslash : ∀ name ∈ file.normal.names, '\\' ∉ name)
    (hbareslash : ∀ name ∈ bare.normal.names, '\\' ∉ name)
    (hname : file.normal.names = above ++ [stem ++ '.' :: ext])
    (hstem : bare.normal.names = above ++ [stem]) :
    specifier dir bare ++ '.' :: ext = specifier dir file ↔
      ¬ file.normal.names <+: dir.normal.names ∧ ¬ bare.normal.names <+: dir.normal.names := by
  have hne : stem ++ '.' :: ext ≠ stem := by simp
  constructor
  · intro heq
    have hlength := congrArg List.length heq
    rw [List.length_append, List.length_cons] at hlength
    constructor
    · intro h
      have hlt := length_specifier_lt hdir hfile hbare hfileslash hbareslash hname hstem hne h
      omega
    · intro h
      have hlt := length_specifier_lt hdir hbare hfile hbareslash hfileslash hstem hname hne.symm h
      rw [List.length_append, List.length_cons] at hlt
      omega
  · rintro ⟨hfileabove, hbareabove⟩
    obtain ⟨shared, ts, bs, rfl, hb, parted⟩ := Path.exists_parted above dir.normal.names
    rw [List.append_assoc] at hname hstem
    rw [hname, hb, List.prefix_append_right_inj] at hfileabove
    rw [hstem, hb, List.prefix_append_right_inj] at hbareabove
    rw [specifier_of_parted hdir hbare hbareslash hb hstem (parted.concat hbareabove),
      directions_concat,
      specifier_of_parted hdir hfile hfileslash hb hname (parted.concat hfileabove)]

/-- A page is imported by the same name with and without its extension, just if neither its file nor
the path of the file without extension lies at or above the directory of the module. -/
theorem imports_of_page_iff {pages : List Page} {dir : Path} {i : Nat} {page : Page}
    {ext : List Char} (hpage : pages[i]? = some page) (hdir : dir.IsDirect)
    (hfile : page.file.IsDirect) (hslash : '\\' ∉ page.file.text)
    (hext : page.file.extension? = some ext) (hcurrent : page.file.stem? ≠ some ['.'])
    (hparent : page.file.stem? ≠ some ['.', '.']) :
    ∃ d, (descriptors pages dir)[i]? = some d ∧
      (d.componentImport ++ '.' :: ext = d.metaImport ↔
        ¬ page.file.components <+: dir.components ∧
          ¬ (page.file.withExtension []).components <+: dir.components) := by
  refine ⟨.ofPage dir i page, by simp [descriptors, hpage], ?_⟩
  obtain ⟨name, hname, hsplit⟩ := Option.bind_eq_some_iff.mp hext
  have hstem? : page.file.stem? = some (Path.splitExtension name).1 := by
    rw [Path.stem?, hname, Option.map_some]
  have hparts : Path.splitExtension name = ((Path.splitExtension name).1, some ext) :=
    Prod.ext rfl hsplit
  generalize (Path.splitExtension name).1 = stem at hstem? hparts
  rw [hstem?, Ne, Option.some.injEq] at hcurrent hparent
  have hisname : IsName name :=
    Path.isName_of_mem_components (List.mem_of_getLast? (Path.getLast?_of_fileName? hname))
  have hstem : IsName stem := hisname.stem hparts hcurrent hparent
  obtain ⟨hbare, above, hnames, hbarenames⟩ :=
    Path.exists_names_withExtension hfile hname hparts hstem
  obtain ⟨rfl, -⟩ := splitExtension_eq_some hparts
  have hfileslash := hfile.notMem_name hslash
  have hbareslash : ∀ n ∈ (page.file.withExtension []).normal.names, '\\' ∉ n := by
    intro n hn
    rw [hnames] at hfileslash
    rw [hbarenames, List.mem_append, List.mem_singleton] at hn
    rcases hn with hn | rfl
    · exact hfileslash n (List.mem_append_left _ hn)
    · have hlast := hfileslash _ (List.mem_append_right above (List.mem_singleton_self _))
      exact fun h => hlast (List.mem_append_left _ h)
  rw [← Path.names_prefix_iff hfile hdir, ← Path.names_prefix_iff hbare hdir]
  exact specifier_stem_iff hdir hfile hbare hfileslash hbareslash hnames hbarenames

/-- The directory begins like the page's name but is none of its two paths. -/
theorem imports_of_page_iff_trial :
    let page : Page := ⟨"/about".toList, "/app/./about.tsx/"⟩
    ∃ d, (descriptors [⟨"/".toList, "/app/index.ts"⟩, page] "/app/abou")[1]? = some d ∧
      d.componentImport ++ '.' :: "tsx".toList = d.metaImport := by
  intro page
  have hpage : [⟨"/".toList, "/app/index.ts"⟩, page][1]? = some page := by rfl
  have hdir : Path.IsDirect "/app/abou" := by decide
  have hext : page.file.extension? = some "tsx".toList := by decide
  obtain ⟨d, hd, hiff⟩ := imports_of_page_iff hpage hdir (by decide) (by decide) hext
    (by decide) (by decide)
  exact ⟨d, hd, hiff.mpr (by decide)⟩

/-- From a directory named like the page, the page without its extension is the directory. -/
theorem component_import_names_directory :
    let page : Page := ⟨"/about".toList, "/app/about.ts"⟩
    let dir : Path := "/app/about"
    dir.IsDirect ∧ page.file.IsDirect ∧ '\\' ∉ page.file.text ∧
      page.file.extension? = some "ts".toList ∧ page.file.stem? = some "about".toList ∧
      ∃ d, (descriptors [page] dir)[0]? = some d ∧ d.componentImport = "./".toList ∧
        d.metaImport = "../about.ts".toList ∧
        d.componentImport ++ '.' :: "ts".toList ≠ d.metaImport := by
  refine ⟨by decide, by decide, by decide, by decide, by decide, _, rfl, ?_⟩
  decide

end Routes

end LiveLoader
