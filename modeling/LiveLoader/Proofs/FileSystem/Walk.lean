import LiveLoader.FileSystem.Basic
import LiveLoader.Proofs.Build
import LiveLoader.Proofs.Path.Extension

/-!
# Where a walk ends

A walk leads through directories only. So a path that ends in a separator, in `.` or in `..` leads to a
directory if it leads anywhere, and a path at which a file can be read ends in a name.
-/

namespace LiveLoader

open Text

namespace FileSystem

variable {fs : FileSystem}

/-- All places above the location are directories. -/
def Standing (fs : FileSystem) : Location → Prop
  | [] => True
  | _ :: l => fs.entry? l = some .directory ∧ fs.Standing l

theorem Standing.tail {l : Location} (h : fs.Standing l) : fs.Standing l.tail := by
  cases l with
  | nil => exact h
  | cons name l => exact h.2

theorem Standing.directory {l : Location} (h : fs.Standing l) :
    fs.entry? l.tail = some .directory := by
  cases l with
  | nil => rfl
  | cons name l => exact h.1

/-- A piece of a path that does not lead down. -/
def IsDots (p : List Char) : Prop := p = [] ∨ p = ['.'] ∨ p = ['.', '.']

/-- A walk is at a directory in the end, or it has to go on to its end from a directory. -/
def Stop.Bound (fs : FileSystem) (q : List Char) : Stop → Prop
  | .reached l => fs.entry? l = some .directory
  | .link directory _ rest => fs.Standing directory ∧ rest.getLast? = some q

/-- A walk whose last piece does not lead down ends at a directory, or at a link on the way. -/
theorem bound_of_walk {q : List Char} (hq : IsDots q) {ps : List (List Char)} {l : Location}
    {stop : Stop} (standing : fs.Standing l) (last : ps.getLast? = some q)
    (h : fs.walk l ps = .ok stop) : stop.Bound fs q := by
  induction ps generalizing l with
  | nil => cases last
  | cons piece rest ih =>
    rw [walk] at h
    by_cases directory : fs.entry? l = some .directory
    · have below : fs.Standing (piece :: l) := ⟨directory, standing⟩
      rw [if_neg (not_not_intro directory)] at h
      cases rest with
      | nil =>
        obtain rfl : piece = q := Option.some.inj last
        split_ifs at h with hstay hup
        · obtain rfl := Except.ok.inj h
          exact directory
        · obtain rfl := Except.ok.inj h
          exact standing.directory
        · exact absurd (or_assoc.mpr hq) (not_or.mpr ⟨hstay, hup⟩)
      | cons next rest =>
        rw [List.getLast?_cons_cons] at last
        split_ifs at h with hstay hup
        · exact ih standing last h
        · exact ih standing.tail last h
        · split at h
          · cases h
          · obtain rfl := Except.ok.inj h
            exact ⟨standing, last⟩
          · exact ih below last h
    · rw [if_pos directory] at h
      cases h

theorem directory_of_follow {q : List Char} (hq : IsDots q) {links : Nat} {ps : List (List Char)}
    {l l' : Location} (standing : fs.Standing l) (last : ps.getLast? = some q)
    (h : fs.follow links l ps = .ok l') : fs.entry? l' = some .directory := by
  induction links generalizing l ps with
  | zero =>
    unfold follow at h
    split at h
    · cases h
    · next hw =>
      obtain rfl := Except.ok.inj h
      exact bound_of_walk hq standing last hw
    · cases h
  | succ links ih =>
    unfold follow at h
    split at h
    · cases h
    · next hw =>
      obtain rfl := Except.ok.inj h
      exact bound_of_walk hq standing last hw
    · next directory target rest hw =>
      obtain ⟨above, last⟩ := bound_of_walk hq standing last hw
      refine ih ?_ ?_ h
      · split
        · exact trivial
        · exact above
      · rw [List.getLast?_append, last]
        rfl

end FileSystem

/-- The last piece of a path without a name does not lead down. -/
theorem Path.isDots_of_fileName? {p : Path} (h : p.fileName? = none) :
    ∃ q, FileSystem.IsDots q ∧ (pieces '/' p.text).getLast? = some q := by
  obtain ⟨ps, q, hpieces⟩ := exists_pieces_concat '/' p.text
  refine ⟨q, ?_, by rw [hpieces]; exact List.getLast?_concat⟩
  by_contra hq
  have hpiece (first : Bool) : Component.ofPiece first q = some (.normal q) := by
    unfold FileSystem.IsDots at hq
    unfold Component.ofPiece
    simp_all
  have hend (first : Bool) (qs : List (List Char)) :
      ((qs ++ [q]).filterMap (Component.ofPiece first)).getLast? = some (.normal q) := by
    simp [hpiece]
  have hlast : p.components.getLast? = some (.normal q) := by
    unfold Path.components
    rw [hpieces]
    split
    · rw [List.getLast?_cons, hend]
      rfl
    · cases ps with
      | nil => simp [hpiece]
      | cons r ps =>
        rw [List.getLast?_append, List.cons_append, List.drop_succ_cons, List.drop_zero, hend]
        rfl
  rw [Path.fileName?, hlast] at h
  cases h

/-- What is read is read under a name. -/
theorem FileSystem.fileName?_of_readText {fs : FileSystem} {p : Path} {text : List Char}
    (h : fs.readText p = .ok text) : p.fileName? ≠ none := by
  intro hname
  obtain ⟨q, hq, last⟩ := Path.isDots_of_fileName? hname
  obtain ⟨l, hl, htext⟩ := bind_eq_ok.mp h
  unfold locate at hl
  split_ifs at hl
  have hend : (fs.fromRoot p).getLast? = some q := by
    unfold fromRoot
    split
    · exact last
    · rw [List.getLast?_append, last]
      rfl
  have hdirectory := directory_of_follow (l := []) hq trivial hend hl
  rw [textAt, hdirectory] at htext
  cases htext

end LiveLoader
