/-!
# URL patterns

A route key names parameters in brackets. Its pattern has `**` for a catch-all and `:name` for a
parameter, and loses one leading slash.
-/

namespace LiveLoader.Routes

/-- Closes a catch-all: the rest behind its bracket, and behind a second one if it is there. -/
def closeCatchAll? : List Char → Option (List Char)
  | [] => none
  | ']' :: ']' :: r => some r
  | ']' :: r => some r
  | _ :: r => closeCatchAll? r

/-- What follows the catch-all that the text begins with. -/
def catchAll? : List Char → Option (List Char)
  | '[' :: '[' :: '.' :: '.' :: '.' :: r => closeCatchAll? r
  | '[' :: '.' :: '.' :: '.' :: r => closeCatchAll? r
  | _ => none

theorem closeCatchAll?_length {s r : List Char} (h : closeCatchAll? s = some r) :
    r.length < s.length := by
  fun_induction closeCatchAll? s with
  | case1 => simp at h
  | case2 =>
    obtain rfl := Option.some.inj h
    exact Nat.lt_of_succ_lt (Nat.lt_succ_self _)
  | case3 =>
    obtain rfl := Option.some.inj h
    exact Nat.lt_succ_self _
  | case4 _ _ _ _ ih => exact Nat.lt_succ_of_lt (ih h)

theorem catchAll?_length {s r : List Char} (h : catchAll? s = some r) : r.length < s.length := by
  unfold catchAll? at h
  split at h
  · have := closeCatchAll?_length h; simp; omega
  · have := closeCatchAll?_length h; simp; omega
  · simp at h

/-- Every catch-all becomes two stars. -/
def replaceCatchAlls (s : List Char) : List Char :=
  match s with
  | [] => []
  | c :: r =>
    match _h : catchAll? (c :: r) with
    | some rest => '*' :: '*' :: replaceCatchAlls rest
    | none => c :: replaceCatchAlls r
termination_by s.length
decreasing_by
  · exact catchAll?_length _h
  · simp

/-- The name up to the first closing bracket on the same line, and what follows the bracket. -/
def parameterName? : List Char → Option (List Char × List Char)
  | [] => none
  | c :: r =>
    if c = ']' then some ([], r)
    else if c = '\n' then none
    else (parameterName? r).map fun (n, rest) => (c :: n, rest)

theorem parameterName?_length {s n r : List Char} (h : parameterName? s = some (n, r)) :
    r.length < s.length := by
  induction s generalizing n with
  | nil => simp [parameterName?] at h
  | cons c s ih =>
    simp only [parameterName?] at h
    split at h
    · simp_all
    · split at h
      · simp at h
      · simp only [Option.map_eq_some_iff, Prod.mk.injEq, Prod.exists] at h
        obtain ⟨n', r', h, _, rfl⟩ := h
        have := ih h
        simp; omega

/-- Every bracketed name becomes a parameter. -/
def replaceParameters (s : List Char) : List Char :=
  match s with
  | [] => []
  | c :: r =>
    if c = '[' then
      match _h : parameterName? r with
      | some (name, rest) => ':' :: name ++ replaceParameters rest
      | none => c :: replaceParameters r
    else c :: replaceParameters r
termination_by s.length
decreasing_by
  · have := parameterName?_length _h; simp; omega
  all_goals simp

def dropSlash : List Char → List Char
  | '/' :: r => r
  | s => s

def urlPattern (key : List Char) : List Char :=
  dropSlash (replaceParameters (replaceCatchAlls key))

end LiveLoader.Routes
