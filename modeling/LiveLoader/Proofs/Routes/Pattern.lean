import LiveLoader.Routes.Pattern
import Mathlib.Data.List.Basic

/-!
# Keys put together from pieces

A key is made of literal texts, parameters and catch-alls. Both passes over it go from piece to
piece: the first one meets no catch-all but those that the pieces are, since a parameter does not
begin like one and no piece begins with the bracket that closes one, and what it puts in their place
has no brackets for the second one.
-/

namespace LiveLoader.Routes

/-- A text in which no bracket opens or closes anything. -/
def Bare (s : List Char) : Prop := '[' ∉ s ∧ ']' ∉ s

instance (s : List Char) : Decidable (Bare s) := inferInstanceAs (Decidable (_ ∧ _))

/-- What a key is put together from. -/
inductive KeyPiece where
  | literal (text : List Char)
  | parameter (name : List Char)
  /-- A catch-all stands in one pair of brackets or in two. -/
  | catchAll (doubled : Bool) (name : List Char)
  deriving DecidableEq, Repr

namespace KeyPiece

/-- The piece as it stands in a key. -/
def source : KeyPiece → List Char
  | literal text => text
  | parameter name => '[' :: name ++ [']']
  | catchAll false name => '[' :: '.' :: '.' :: '.' :: name ++ [']']
  | catchAll true name => '[' :: '[' :: '.' :: '.' :: '.' :: name ++ [']', ']']

/-- The piece as it stands in a pattern. -/
def pattern : KeyPiece → List Char
  | literal text => text
  | parameter name => ':' :: name
  | catchAll _ _ => ['*', '*']

/-- The piece between the two passes. -/
def halfway : KeyPiece → List Char
  | catchAll _ _ => ['*', '*']
  | p => p.source

/-- The names and texts have no brackets; a name of a parameter stands in one line, and does not
begin as that of a catch-all. -/
def Sound : KeyPiece → Prop
  | literal text => Bare text
  | parameter name => Bare name ∧ '\n' ∉ name ∧ ¬ ['.', '.', '.'] <+: name
  | catchAll _ name => Bare name

instance : DecidablePred Sound
  | literal text => inferInstanceAs (Decidable (Bare text))
  | parameter name =>
    inferInstanceAs (Decidable (Bare name ∧ '\n' ∉ name ∧ ¬ ['.', '.', '.'] <+: name))
  | catchAll _ name => inferInstanceAs (Decidable (Bare name))

end KeyPiece

theorem replaceCatchAlls_of_some {s rest : List Char} (h : catchAll? s = some rest) :
    replaceCatchAlls s = '*' :: '*' :: replaceCatchAlls rest := by
  cases s with
  | nil => simp [catchAll?] at h
  | cons c r =>
    rw [replaceCatchAlls]
    split <;> simp_all

theorem replaceCatchAlls_of_none {c : Char} {r : List Char} (h : catchAll? (c :: r) = none) :
    replaceCatchAlls (c :: r) = c :: replaceCatchAlls r := by
  rw [replaceCatchAlls]
  split <;> simp_all

theorem catchAll?_of_ne {c : Char} (h : c ≠ '[') (r : List Char) : catchAll? (c :: r) = none := by
  unfold catchAll?
  split <;> simp_all

/-- Text without an opening bracket stays as it is. -/
theorem replaceCatchAlls_append {s : List Char} (h : '[' ∉ s) (t : List Char) :
    replaceCatchAlls (s ++ t) = s ++ replaceCatchAlls t := by
  induction s with
  | nil => rfl
  | cons c s ih =>
    rw [List.mem_cons, not_or] at h
    rw [List.cons_append, replaceCatchAlls_of_none (catchAll?_of_ne (Ne.symm h.1) _), ih h.2,
      List.cons_append]

/-- The bracket that closes a catch-all stands behind its name. -/
theorem closeCatchAll?_append {name : List Char} (h : ']' ∉ name) (t : List Char) :
    closeCatchAll? (name ++ t) = closeCatchAll? t := by
  induction name with
  | nil => rfl
  | cons c name ih =>
    rw [List.mem_cons, not_or] at h
    have hc : c ≠ ']' := Ne.symm h.1
    rw [List.cons_append, closeCatchAll?.eq_def]
    split <;> simp_all

/-- One bracket closes a catch-all if no second one follows. -/
theorem closeCatchAll?_cons {t : List Char} (h : t.head? ≠ some ']') :
    closeCatchAll? (']' :: t) = some t := by
  cases t with
  | nil => rfl
  | cons c t =>
    have hc : c ≠ ']' := by simpa using h
    simp [closeCatchAll?, hc]

/-- A parameter is not taken for a catch-all, whatever follows it. -/
theorem catchAll?_parameter {name : List Char} (hname : Bare name)
    (hdots : ¬ ['.', '.', '.'] <+: name) (t : List Char) :
    catchAll? ('[' :: ((name ++ [']']) ++ t)) = none := by
  obtain ⟨hopen, -⟩ := hname
  match name with
  | [] | [_] | [_, _] | _ :: _ :: _ :: _ =>
    unfold catchAll?
    split <;> simp_all

theorem KeyPiece.catchAll?_catchAll {doubled : Bool} {name t : List Char}
    (hname : ']' ∉ name) (ht : t.head? ≠ some ']') :
    catchAll? ((catchAll doubled name).source ++ t) = some t := by
  cases doubled with
  | false =>
    have hsource : (catchAll false name).source ++ t =
        '[' :: '.' :: '.' :: '.' :: (name ++ ']' :: t) := by simp [source]
    rw [hsource]
    exact (closeCatchAll?_append hname _).trans (closeCatchAll?_cons ht)
  | true =>
    have hsource : (catchAll true name).source ++ t =
        '[' :: '[' :: '.' :: '.' :: '.' :: (name ++ ']' :: ']' :: t) := by simp [source]
    rw [hsource]
    exact closeCatchAll?_append hname _

/-- No piece begins with a closing bracket. -/
theorem KeyPiece.head?_sources {ps : List KeyPiece} (h : ∀ p ∈ ps, p.Sound) :
    (ps.flatMap source).head? ≠ some ']' := by
  induction ps with
  | nil => simp
  | cons p ps ih =>
    have ih := ih fun q hq => h q (List.mem_cons_of_mem p hq)
    have hp := h p List.mem_cons_self
    rw [List.flatMap_cons]
    cases p with
    | parameter name => simp [source]
    | catchAll doubled name => cases doubled <;> simp [source]
    | literal text =>
      cases text with
      | nil => exact ih
      | cons c text =>
        intro he
        exact hp.2 (Option.some.inj he ▸ List.mem_cons_self)

/-- The first pass exchanges the catch-alls and keeps everything else. -/
theorem KeyPiece.replaceCatchAlls_sources {ps : List KeyPiece} (h : ∀ p ∈ ps, p.Sound) :
    replaceCatchAlls (ps.flatMap source) = ps.flatMap halfway := by
  induction ps with
  | nil => simp [replaceCatchAlls]
  | cons p ps ih =>
    have hps : ∀ q ∈ ps, q.Sound := fun q hq => h q (List.mem_cons_of_mem p hq)
    have hp := h p List.mem_cons_self
    rw [List.flatMap_cons, List.flatMap_cons, ← ih hps]
    cases p with
    | literal text => exact replaceCatchAlls_append hp.1 _
    | parameter name =>
      obtain ⟨hbare, -, hdots⟩ := hp
      have hclosed : '[' ∉ name ++ [']'] := by simp [hbare.1]
      have hnone := catchAll?_parameter hbare hdots (ps.flatMap source)
      have hsource : (parameter name).source ++ ps.flatMap source =
          '[' :: ((name ++ [']']) ++ ps.flatMap source) := by simp [source]
      rw [hsource, replaceCatchAlls_of_none hnone,
        replaceCatchAlls_append hclosed]
      simp [halfway, source]
    | catchAll doubled name =>
      rw [replaceCatchAlls_of_some (catchAll?_catchAll hp.2 (head?_sources hps))]
      rfl

theorem replaceParameters_of_some {r name rest : List Char}
    (h : parameterName? r = some (name, rest)) :
    replaceParameters ('[' :: r) = ':' :: name ++ replaceParameters rest := by
  rw [replaceParameters, if_pos rfl]
  split <;> simp_all

/-- Text without an opening bracket stays as it is. -/
theorem replaceParameters_append {s : List Char} (h : '[' ∉ s) (t : List Char) :
    replaceParameters (s ++ t) = s ++ replaceParameters t := by
  induction s with
  | nil => rfl
  | cons c s ih =>
    rw [List.mem_cons, not_or] at h
    rw [List.cons_append, replaceParameters, if_neg (Ne.symm h.1), ih h.2, List.cons_append]

theorem parameterName?_append {name : List Char} (hclose : ']' ∉ name) (hfeed : '\n' ∉ name)
    (t : List Char) : parameterName? (name ++ ']' :: t) = some (name, t) := by
  induction name with
  | nil => rfl
  | cons c name ih =>
    rw [List.mem_cons, not_or] at hclose hfeed
    rw [List.cons_append, parameterName?, if_neg (Ne.symm hclose.1), if_neg (Ne.symm hfeed.1),
      ih hclose.2 hfeed.2]
    rfl

/-- The second pass exchanges the parameters and keeps everything else. -/
theorem KeyPiece.replaceParameters_halfway {ps : List KeyPiece} (h : ∀ p ∈ ps, p.Sound) :
    replaceParameters (ps.flatMap halfway) = ps.flatMap pattern := by
  induction ps with
  | nil => simp [replaceParameters]
  | cons p ps ih =>
    have ih := ih fun q hq => h q (List.mem_cons_of_mem p hq)
    have hp := h p List.mem_cons_self
    rw [List.flatMap_cons, List.flatMap_cons, ← ih]
    cases p with
    | literal text => exact replaceParameters_append hp.1 _
    | parameter name =>
      obtain ⟨hbare, hfeed, -⟩ := hp
      have hname := parameterName?_append hbare.2 hfeed (ps.flatMap halfway)
      have hsource : (parameter name).halfway ++ ps.flatMap halfway =
          '[' :: (name ++ ']' :: ps.flatMap halfway) := by simp [halfway, source]
      rw [hsource, replaceParameters_of_some hname]
      rfl
    | catchAll doubled name =>
      have hstars : '[' ∉ ['*', '*'] := by decide
      exact replaceParameters_append hstars _

theorem dropSlash_eq (s : List Char) :
    dropSlash s = if s.head? = some '/' then s.tail else s := by
  unfold dropSlash
  split
  case h_1 => rfl
  case h_2 hslash =>
    rw [if_neg]
    intro hhead
    obtain ⟨r, rfl⟩ := List.head?_eq_some_iff.mp hhead
    exact hslash r rfl

/-- The pattern of a key has the texts of the key as they are, a name behind a colon for each
parameter and two stars for each catch-all, in their order, without one slash in front. -/
theorem urlPattern_of_pieces {ps : List KeyPiece} (h : ∀ p ∈ ps, p.Sound) :
    let pattern := ps.flatMap KeyPiece.pattern
    urlPattern (ps.flatMap KeyPiece.source) =
      if pattern.head? = some '/' then pattern.tail else pattern := by
  intro pattern
  rw [urlPattern, KeyPiece.replaceCatchAlls_sources h, KeyPiece.replaceParameters_halfway h,
    dropSlash_eq]

/-- A catch-all directly behind a parameter whose name is two dots, and one over two lines. -/
theorem urlPattern_of_pieces_trial :
    urlPattern "//a.b[..][...x][[...y\nz]]:c".toList = "/a.b:..****:c".toList := by
  have hsound : ∀ p ∈ [KeyPiece.literal "//a.b".toList, .parameter "..".toList,
      .catchAll false "x".toList, .catchAll true "y\nz".toList, .literal ":c".toList],
      p.Sound := by decide
  exact urlPattern_of_pieces hsound

end LiveLoader.Routes
