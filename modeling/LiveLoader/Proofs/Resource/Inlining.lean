import LiveLoader.Proofs.Build
import LiveLoader.Proofs.Path.Normal
import LiveLoader.Resource.Inlining

/-!
# What inlining reads

A component's resources are inlined from the files that are listed with the result. So the same
comes out wherever these files have the same texts; and inlining fails only for a file that cannot
be read.
-/

namespace LiveLoader.Resource

section

variable (fs : FileSystem) (component : Path) (url : List Char)

/-- A component's file is normal already, so it is read just where it is. -/
theorem read_fileOf : ResourceHost.read fs (fileOf component url) =
    (fs.readText (fileOf component url)).mapError
      fun _ => .resourceNotFound (fileOf component url) := by
  have normal : (fileOf component url).normalize = fileOf component url :=
    Path.normalize_normalize _
  simp only [ResourceHost.read, normal]
  cases fs.readText (fileOf component url) with
  | error e => rfl
  | ok text => rfl

theorem read_fileOf_eq_ok {text : List Char} :
    ResourceHost.read fs (fileOf component url) = .ok text ↔
      fs.readText (fileOf component url) = .ok text := by
  rw [read_fileOf, mapError_eq_ok]

theorem result_readFile : Build.result (readFile fs component url) =
    (fun text => (fileOf component url, text)) <$>
      ResourceHost.read fs (fileOf component url) := by
  simp [readFile]

theorem readFile_eq_ok {r : Path × List Char} :
    Build.result (readFile fs component url) = .ok r ↔
      r.1 = fileOf component url ∧ fs.readText r.1 = .ok r.2 := by
  rw [result_readFile, map_eq_ok]
  rcases r with ⟨file, text⟩
  simp only [read_fileOf_eq_ok, Prod.mk.injEq]
  constructor
  · rintro ⟨t, hr, rfl, rfl⟩
    exact ⟨rfl, hr⟩
  · rintro ⟨rfl, hr⟩
    exact ⟨text, hr, rfl, rfl⟩

/-- The text of a stylesheet as the host transforms it. -/
def styled (host : ResourceHost) (component file : Path) (text : List Char) : List Char :=
  (host.transform text ⟨.style, some file, component⟩).value.getD text

theorem readStyle_eq_ok (host : ResourceHost) {r : (Path × List Char) × List Char} :
    Build.result (readStyle host fs component url) = .ok r ↔
      Build.result (readFile fs component url) = .ok r.1 ∧
        r.2 = styled host component r.1.1 r.1.2 := by
  simp only [readStyle, Build.result_bind, bind_eq_ok, Build.result_ofLogged, Build.result_pure,
    Except.ok.injEq, exists_eq_left']
  constructor
  · rintro ⟨⟨file, text⟩, hr, rfl⟩
    exact ⟨hr, rfl⟩
  · intro h
    exact ⟨r.1, h.1, Prod.ext rfl h.2.symm⟩

end

section

variable {digest : List Char → String} {host : ResourceHost} {fs fs' : FileSystem}
  {component : Path}

/-- The list of files with their digests says what was read. -/
def Recorded (digest : List Char → String) (fs : FileSystem) (files : List (Path × String)) :
    Prop :=
  ∀ e ∈ files, ∃ text, fs.readText e.1 = .ok text ∧ e.2 = digest text

/-- The files have the same texts in both file systems. -/
def Agree (fs fs' : FileSystem) (files : List (Path × String)) : Prop :=
  ∀ e ∈ files, fs'.readText e.1 = fs.readText e.1

theorem readFile_frame {url : List Char} {r : Path × List Char}
    (h : Build.result (readFile fs component url) = .ok r)
    (agree : fs'.readText r.1 = fs.readText r.1) :
    Build.result (readFile fs' component url) = .ok r := by
  rw [readFile_eq_ok] at h ⊢
  exact ⟨h.1, agree.trans h.2⟩

/-- Whether a property is inlined depends on the files alone that are listed, and they are. -/
theorem inlineProperty_frame (fs' : FileSystem) {p : MetadataProperty} {part : Inlined}
    (h : Build.result (inlineProperty digest host fs component p) = .ok part) :
    Recorded digest fs part.files ∧ (Agree fs fs' part.files →
      Build.result (inlineProperty digest host fs' component p) = .ok part) := by
  rcases p with ⟨kind, span, values⟩
  cases kind with
  | templateUrl =>
    cases values with
    | nil =>
      cases h
      exact ⟨by simp [Recorded], fun _ => rfl⟩
    | cons url urls =>
      simp only [inlineProperty, Build.result_bind, bind_eq_ok, Build.result_pure,
        Except.ok.injEq] at h ⊢
      obtain ⟨⟨file, text⟩, hr, rfl⟩ := h
      have hread := ((readFile_eq_ok fs component url).mp hr).2
      refine ⟨?_, fun agree => ⟨(file, text), readFile_frame hr ?_, rfl⟩⟩
      · intro e he
        rw [List.mem_singleton.mp he]
        exact ⟨text, hread, rfl⟩
      · exact agree (file, digest text) (List.mem_singleton.mpr rfl)
  | styleUrls =>
    simp only [inlineProperty, Build.result_bind, bind_eq_ok, Build.result_pure,
      Build.result_mapM, Except.ok.injEq] at h ⊢
    obtain ⟨styles, hs, rfl⟩ := h
    have hmem : ∀ r ∈ styles, (r.1.1, digest r.1.2) ∈ fingerprints digest (styles.map (·.1)) := by
      intro r hr
      exact List.mem_map.mpr ⟨r.1, List.mem_map.mpr ⟨r, hr, rfl⟩, rfl⟩
    refine ⟨?_, fun agree => ⟨styles, mapM_of_mapM hs ?_, rfl⟩⟩
    · intro e he
      obtain ⟨read, hread, rfl⟩ := List.mem_map.mp he
      obtain ⟨r, hr, rfl⟩ := List.mem_map.mp hread
      obtain ⟨url, -, hurl⟩ := exists_of_mem_mapM hs hr
      rw [readStyle_eq_ok, readFile_eq_ok] at hurl
      exact ⟨r.1.2, hurl.1.2, rfl⟩
    · intro url _ r hr hurl
      rw [readStyle_eq_ok] at hurl ⊢
      exact ⟨readFile_frame hurl.1 (agree _ (hmem r hr)), hurl.2⟩
  | inlineStyles =>
    refine ⟨?_, fun _ => h⟩
    simp only [inlineProperty, Build.result_bind, bind_eq_ok] at h
    obtain ⟨styles, -, h⟩ := h
    split at h
    all_goals
      cases h
      simp [Recorded]

@[simp] theorem files_concat (parts : List Inlined) :
    (Inlined.concat parts).files = parts.flatMap (·.files) := by
  induction parts with
  | nil => rfl
  | cons part parts ih => rw [List.flatMap_cons, ← ih]; rfl

theorem inlineAll_frame (fs' : FileSystem) {ps : List MetadataProperty} {part : Inlined}
    (h : Build.result (inlineAll digest host fs component ps) = .ok part) :
    Recorded digest fs part.files ∧ (Agree fs fs' part.files →
      Build.result (inlineAll digest host fs' component ps) = .ok part) := by
  simp only [inlineAll, Build.result_map, map_eq_ok, Build.result_mapM] at h ⊢
  obtain ⟨parts, hparts, rfl⟩ := h
  rw [files_concat]
  refine ⟨?_, fun agree => ⟨parts, mapM_of_mapM hparts ?_, rfl⟩⟩
  · intro e he
    obtain ⟨q, hq, he⟩ := List.mem_flatMap.mp he
    obtain ⟨p, -, hp⟩ := exists_of_mem_mapM hparts hq
    exact (inlineProperty_frame fs' hp).1 e he
  · intro p _ q hq hp
    exact (inlineProperty_frame fs' hp).2 fun e he => agree e (List.mem_flatMap.mpr ⟨q, hq, he⟩)

/-- A failure for a file that cannot be read. -/
def Unreadable (fs : FileSystem) (e : BuildError) : Prop :=
  ∃ file, e = .resourceNotFound file ∧ ∃ f, fs.readText file = .error f

/-- The files that a property is inlined from. -/
def MetadataProperty.files (component : Path) (p : MetadataProperty) : List Path :=
  match p.kind with
  | .templateUrl => (p.values.take 1).map (fileOf component)
  | .styleUrls => p.values.map (fileOf component)
  | .inlineStyles => []

def firstUnreadable? (fs : FileSystem) (files : List Path) : Option Path :=
  files.find? fun file => (fs.readText file).toOption.isNone

def Readable (fs : FileSystem) (file : Path) : Prop := ∃ text, fs.readText file = .ok text

theorem readable_iff {file : Path} :
    Readable fs file ↔ (fs.readText file).toOption.isNone = false := by
  unfold Readable
  cases fs.readText file with
  | error f => exact ⟨nofun, nofun⟩
  | ok text => exact ⟨fun _ => rfl, fun _ => ⟨text, rfl⟩⟩

theorem not_readable_iff {file : Path} :
    ¬ Readable fs file ↔ ∃ f, fs.readText file = .error f := by
  unfold Readable
  cases fs.readText file with
  | error f => exact ⟨fun _ => ⟨f, rfl⟩, fun _ => nofun⟩
  | ok text => exact ⟨fun h => absurd ⟨text, rfl⟩ h, nofun⟩

theorem firstUnreadable?_eq_none {files : List Path} :
    firstUnreadable? fs files = none ↔ ∀ file ∈ files, Readable fs file := by
  simp only [firstUnreadable?, List.find?_eq_none, readable_iff, Bool.not_eq_true]

theorem firstUnreadable?_eq_some {files : List Path} {file : Path} :
    firstUnreadable? fs files = some file ↔ ∃ front back, files = front ++ file :: back ∧
      (∀ f ∈ front, Readable fs f) ∧ ¬ Readable fs file := by
  simp only [firstUnreadable?, List.find?_eq_some_iff_append, readable_iff, Bool.not_eq_false,
    Bool.not_eq_true']
  constructor
  · rintro ⟨unreadable, front, back, heq, hfront⟩
    exact ⟨front, back, heq, hfront, unreadable⟩
  · rintro ⟨front, back, heq, hfront, unreadable⟩
    exact ⟨unreadable, front, back, heq, hfront⟩

/-- A result fails if some of the files cannot be read, as the first of them, and only then. -/
def Needs (fs : FileSystem) (files : List Path) (x : Result α) : Prop :=
  failure? x = (firstUnreadable? fs files).map .resourceNotFound

namespace Needs

theorem ok (fs : FileSystem) (a : α) : Needs fs [] (.ok a) := rfl

theorem bind {files : List Path} {x : Result α} {f : α → Result β} (h : Needs fs files x)
    (hf : ∀ a, ∃ b, f a = .ok b) : Needs fs files (x >>= f) :=
  (failure?_bind hf).trans h

theorem mapM {files : α → List Path} {f : α → Result β} (h : ∀ a, Needs fs (files a) (f a))
    (as : List α) : Needs fs (as.flatMap files) (as.mapM f) := by
  unfold Needs firstUnreadable? at h ⊢
  rw [failure?_mapM, List.find?_flatMap, List.map_findSome?]
  exact congrArg (as.findSome? ·) (funext h)

theorem eq_ok_iff {files : List Path} {x : Result α} (h : Needs fs files x) :
    (∃ a, x = .ok a) ↔ ∀ file ∈ files, Readable fs file := by
  rw [← failure?_eq_none, ← firstUnreadable?_eq_none, h, Option.map_eq_none_iff]

theorem eq_error_iff {files : List Path} {x : Result α} (h : Needs fs files x) {e : BuildError} :
    x = .error e ↔ ∃ front file back, files = front ++ file :: back ∧
      (∀ f ∈ front, Readable fs f) ∧ ¬ Readable fs file ∧ e = .resourceNotFound file := by
  rw [← failure?_eq_some, h, Option.map_eq_some_iff]
  constructor
  · rintro ⟨file, hfile, rfl⟩
    obtain ⟨front, back, heq, hfront, unreadable⟩ := firstUnreadable?_eq_some.mp hfile
    exact ⟨front, file, back, heq, hfront, unreadable, rfl⟩
  · rintro ⟨front, file, back, heq, hfront, unreadable, rfl⟩
    exact ⟨file, firstUnreadable?_eq_some.mpr ⟨front, back, heq, hfront, unreadable⟩, rfl⟩

theorem unreadable_of_error {files : List Path} {x : Result α} {e : BuildError}
    (h : Needs fs files x) (failed : x = .error e) :
    ∃ file ∈ files, e = .resourceNotFound file ∧ ∃ f, fs.readText file = .error f := by
  obtain ⟨front, file, back, rfl, -, unreadable, rfl⟩ := h.eq_error_iff.mp failed
  exact ⟨file, List.mem_append_cons_self, rfl, not_readable_iff.mp unreadable⟩

theorem error_of_unreadable {files : List Path} {x : Result α} (h : Needs fs files x)
    {file : Path} (hfile : file ∈ files) {f : FileFailure}
    (unreadable : fs.readText file = .error f) : ∃ e, x = .error e := by
  cases x with
  | error e => exact ⟨e, rfl⟩
  | ok a =>
    have readable := h.eq_ok_iff.mp ⟨a, rfl⟩ file hfile
    exact absurd readable (not_readable_iff.mpr ⟨f, unreadable⟩)

end Needs

theorem needs_readFile (fs : FileSystem) (component : Path) (url : List Char) :
    Needs fs [fileOf component url] (Build.result (readFile fs component url)) := by
  rw [result_readFile, read_fileOf]
  unfold Needs firstUnreadable?
  rw [List.find?_singleton]
  cases fs.readText (fileOf component url) <;> rfl

theorem needs_readStyle (host : ResourceHost) (fs : FileSystem) (component : Path)
    (url : List Char) :
    Needs fs [fileOf component url] (Build.result (readStyle host fs component url)) := by
  rw [readStyle, Build.result_bind]
  exact (needs_readFile fs component url).bind fun _ => ⟨_, rfl⟩

section

variable (digest : List Char → String) (host : ResourceHost) (fs : FileSystem) (component : Path)

theorem needs_inlineProperty (p : MetadataProperty) :
    Needs fs (p.files component) (Build.result (inlineProperty digest host fs component p)) := by
  rcases p with ⟨kind, span, values⟩
  cases kind with
  | templateUrl =>
    cases values with
    | nil => exact Needs.ok fs _
    | cons url urls =>
      rw [inlineProperty, Build.result_bind]
      exact (needs_readFile fs component url).bind fun _ => ⟨_, rfl⟩
  | styleUrls =>
    have styles := Needs.mapM (needs_readStyle host fs component) values
    rw [← List.map_eq_flatMap] at styles
    rw [inlineProperty, Build.result_bind, Build.result_mapM]
    exact styles.bind fun _ => ⟨_, rfl⟩
  | inlineStyles =>
    have styled : ∀ text, Build.result (do
        let css ← Build.ofLogged (host.transform text ⟨.style, none, component⟩)
        return (text, css)) = .ok (text, (host.transform text ⟨.style, none, component⟩).value) :=
      fun _ => rfl
    rw [inlineProperty, Build.result_bind, Build.result_mapM, mapM_eq_map styled]
    refine (Needs.ok fs _).bind fun styles => ?_
    split
    all_goals exact ⟨_, rfl⟩

/-- Inlining fails for the first file that cannot be read, of those that the properties name. -/
theorem needs_inlineAll (ps : List MetadataProperty) :
    Needs fs (ps.flatMap (·.files component))
      (Build.result (inlineAll digest host fs component ps)) := by
  rw [inlineAll, Build.result_map, Build.result_mapM, map_eq_pure_bind]
  exact (Needs.mapM (needs_inlineProperty digest host fs component) ps).bind fun _ => ⟨_, rfl⟩

end

theorem inlineAll_eq_error {ps : List MetadataProperty} {e : BuildError}
    (h : Build.result (inlineAll digest host fs component ps) = .error e) :
    Unreadable fs e := by
  obtain ⟨file, -, hfile⟩ := (needs_inlineAll digest host fs component ps).unreadable_of_error h
  exact ⟨file, hfile⟩

/-- Who cannot read the file for which inlining failed elsewhere fails too, if perhaps for
another one. -/
theorem inlineAll_eq_error_of_unreadable {ps : List MetadataProperty} {file : Path}
    {f : FileFailure}
    (h : Build.result (inlineAll digest host fs component ps) = .error (.resourceNotFound file))
    (unreadable : fs'.readText file = .error f) :
    ∃ e, Build.result (inlineAll digest host fs' component ps) = .error e := by
  obtain ⟨file', hmem, heq, -⟩ :=
    (needs_inlineAll digest host fs component ps).unreadable_of_error h
  obtain rfl := BuildError.resourceNotFound.inj heq
  exact (needs_inlineAll digest host fs' component ps).error_of_unreadable hmem unreadable

end

end LiveLoader.Resource
