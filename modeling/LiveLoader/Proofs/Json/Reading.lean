import Mathlib.Data.List.DropRight
import Mathlib.Data.List.TakeWhile
import LiveLoader.Proofs.Json.Strings

/-!
# Reading values

The reader accepts what the grammar spells, however it is laid out, gives back the value that was
spelled, and stops where the value ends.
-/

namespace LiveLoader.Json

theorem isSpace_iff {c : Char} : isSpace c = true ↔ c ∈ [' ', '\n', '\t', '\r'] := by
  simp [isSpace, or_assoc]

theorem skipSpace_append {b : List Char} (h : Blank b) (r : List Char) :
    skipSpace (b ++ r) = skipSpace r :=
  List.dropWhile_append_of_pos fun c hc => isSpace_iff.mpr (h c hc)

theorem skipSpace_cons {c : Char} (h : isSpace c = false) (r : List Char) :
    skipSpace (c :: r) = c :: r := by
  rw [skipSpace, List.dropWhile_cons_of_neg (by simp [h])]

theorem skipSpace_eq_nil_iff {s : List Char} : skipSpace s = [] ↔ Blank s := by
  rw [skipSpace, List.dropWhile_eq_nil_iff]
  exact forall₂_congr fun c _ => isSpace_iff

/-- What follows a number does not go on with it. -/
def Ends (r : List Char) : Prop :=
  ∀ c ∈ r.head?, c.isDigit = false ∧ c ≠ '.' ∧ c ≠ 'e' ∧ c ≠ 'E'

theorem digits?_append {s : List Char} (h : Digits s) {r : List Char}
    (hr : ∀ c ∈ r.head?, c.isDigit = false) : digits? (s ++ r) = some r := by
  obtain ⟨hne, hall⟩ := h
  cases s with
  | nil => exact absurd rfl hne
  | cons c s =>
    obtain ⟨hc, hs⟩ := List.forall_mem_cons.mp hall
    rw [List.cons_append, digits?, if_pos hc, List.dropWhile_append_of_pos hs]
    cases r with
    | nil => rfl
    | cons d r => rw [List.dropWhile_cons_of_neg (by simp [hr d rfl])]

theorem head_of_digits {c : Char} {s : List Char} (h : Digits (c :: s)) : c.isDigit = true :=
  h.2 c List.mem_cons_self

/-- A character that is a digit is none that is not. -/
theorem ne_of_isDigit {c d : Char} (hc : c.isDigit = true) (hd : d.isDigit = false) : c ≠ d := by
  rintro rfl
  simp [hd] at hc

theorem head_of_integer {i : List Char} (h : SpellsInteger i) :
    ∃ c s, i = c :: s ∧ c.isDigit = true := by
  cases h with
  | zero => exact ⟨'0', [], rfl, by decide⟩
  | @digits c s digits leading => exact ⟨c, s, rfl, head_of_digits digits⟩

theorem afterSign_append {sign i : List Char} (signed : sign ∈ [[], ['-']])
    (integer : SpellsInteger i) (r : List Char) : afterSign (sign ++ (i ++ r)) = i ++ r := by
  obtain ⟨c, s, rfl, hc⟩ := head_of_integer integer
  obtain rfl | rfl : sign = [] ∨ sign = ['-'] := by simpa using signed
  · rw [List.nil_append, List.cons_append, afterSign]
    exact fun _ h => ne_of_isDigit hc (by decide) (List.cons.inj h).1
  · rfl

theorem afterInteger?_append {i : List Char} (h : SpellsInteger i) {r : List Char}
    (hr : ∀ c ∈ r.head?, c.isDigit = false) : afterInteger? (i ++ r) = some r := by
  cases h with
  | zero => rfl
  | @digits c s digits leading =>
    rw [List.cons_append, afterInteger?, ← List.cons_append, digits?_append digits hr]
    exact fun _ h => leading (List.cons.inj h).1

theorem afterFraction?_append {f : List Char} (h : SpellsFraction f) {r : List Char}
    (hr : ∀ c ∈ r.head?, c.isDigit = false ∧ c ≠ '.') : afterFraction? (f ++ r) = some r := by
  cases h with
  | none =>
    rw [List.nil_append, afterFraction?]
    rintro t rfl
    exact (hr '.' rfl).2 rfl
  | some digits => exact digits?_append digits fun c hc => (hr c hc).1

theorem afterEitherSign_append {sign s : List Char} (signed : sign ∈ [[], ['+'], ['-']])
    (digits : Digits s) (r : List Char) : afterEitherSign (sign ++ (s ++ r)) = s ++ r := by
  obtain rfl | rfl | rfl : sign = [] ∨ sign = ['+'] ∨ sign = ['-'] := by simpa using signed
  · cases s with
    | nil => exact absurd rfl digits.1
    | cons c s =>
      have hc := head_of_digits digits
      rw [List.nil_append, List.cons_append, afterEitherSign]
      · exact fun _ h => ne_of_isDigit hc (by decide) (List.cons.inj h).1
      · exact fun _ h => ne_of_isDigit hc (by decide) (List.cons.inj h).1
  · rfl
  · rfl

theorem afterExponent?_append {e : List Char} (h : SpellsExponent e) {r : List Char}
    (ends : Ends r) : afterExponent? (e ++ r) = some r := by
  cases h with
  | none =>
    cases r with
    | nil => rfl
    | cons c r =>
      obtain ⟨-, -, small, large⟩ := ends c rfl
      rw [List.nil_append, afterExponent?, if_neg (by simp [small, large])]
  | @some e sign s mark signed digits =>
    rw [List.cons_append, afterExponent?, if_pos (by simpa using mark), List.append_assoc,
      afterEitherSign_append signed digits]
    exact digits?_append digits fun c hc => (ends c hc).1

theorem head_of_exponent {e : List Char} (h : SpellsExponent e) {r : List Char} (ends : Ends r) :
    ∀ c ∈ (e ++ r).head?, c.isDigit = false ∧ c ≠ '.' := by
  cases h with
  | none => exact fun c hc => ⟨(ends c hc).1, (ends c hc).2.1⟩
  | some mark signed digits =>
    rintro c ⟨⟩
    rcases mark with rfl | rfl <;> decide

theorem head_of_fraction {f : List Char} (h : SpellsFraction f) {r : List Char}
    (hr : ∀ c ∈ r.head?, c.isDigit = false ∧ c ≠ '.') :
    ∀ c ∈ (f ++ r).head?, c.isDigit = false := by
  cases h with
  | none => exact fun c hc => (hr c hc).1
  | some digits =>
    rintro c ⟨⟩
    decide

/-- A number is read to its end. -/
theorem readNumber?_append {s : List Char} (h : SpellsNumber s) {r : List Char} (ends : Ends r) :
    readNumber? (s ++ r) = some r := by
  obtain ⟨signed, integer, fraction, exponent⟩ := h
  have hexponent := head_of_exponent exponent ends
  have hfraction := head_of_fraction fraction hexponent
  simp only [readNumber?, List.append_assoc]
  rw [afterSign_append signed integer, afterInteger?_append integer hfraction, Option.bind_eq_bind,
    Option.bind_some, afterFraction?_append fraction hexponent]
  exact afterExponent?_append exponent ends

theorem head_of_number {s : List Char} (h : SpellsNumber s) :
    ∃ c t, s = c :: t ∧ (c = '-' ∨ c.isDigit = true) := by
  obtain ⟨signed, integer, -, -⟩ := h
  rename_i sign i f e
  obtain ⟨c, t, rfl, hc⟩ := head_of_integer integer
  obtain rfl | rfl : sign = [] ∨ sign = ['-'] := by simpa using signed
  · exact ⟨c, _, rfl, .inr hc⟩
  · exact ⟨'-', _, rfl, .inl rfl⟩

/-- A number begins with none of the characters that begin something else. -/
theorem ne_head_of_number {c d : Char} (h : c = '-' ∨ c.isDigit = true) (sign : d ≠ '-')
    (digit : d.isDigit = false) : c ≠ d := by
  rcases h with rfl | h
  · exact sign.symm
  · exact ne_of_isDigit h digit

theorem isSpace_head_of_number {c : Char} (h : c = '-' ∨ c.isDigit = true) : isSpace c = false := by
  have blanks : ∀ d ∈ [' ', '\n', '\t', '\r'], d ≠ '-' ∧ d.isDigit = false := by
    simp [Char.isDigit]
  refine Bool.eq_false_iff.mpr fun hc => ?_
  obtain ⟨sign, digit⟩ := blanks c (isSpace_iff.mp hc)
  exact ne_head_of_number h sign digit rfl

section

variable (fuel : Nat)

/-- Blanks in front of a value do not count. -/
theorem readValue?_congr {s t : List Char} (h : skipSpace s = skipSpace t) :
    readValue? fuel s = readValue? fuel t := by
  cases fuel with
  | zero => rw [readValue?, readValue?]
  | succ fuel => rw [readValue?, readValue?, h]

theorem readValue?_blank {b : List Char} (h : Blank b) (s : List Char) :
    readValue? fuel (b ++ s) = readValue? fuel s :=
  readValue?_congr fuel (skipSpace_append h s)

theorem skipSpace_skipSpace (s : List Char) : skipSpace (skipSpace s) = skipSpace s :=
  List.dropWhile_idempotent ..

theorem readItems?_skipSpace (s : List Char) :
    readItems? fuel (skipSpace s) = readItems? fuel s := by
  cases fuel with
  | zero => rw [readItems?, readItems?]
  | succ fuel =>
    rw [readItems?, readItems?, readValue?_congr fuel (skipSpace_skipSpace s)]

theorem readMembers?_skipSpace (s : List Char) :
    readMembers? fuel (skipSpace s) = readMembers? fuel s := by
  cases fuel with
  | zero => rw [readMembers?, readMembers?]
  | succ fuel => rw [readMembers?, readMembers?, skipSpace_skipSpace]

theorem readValue?_number {c : Char} (h : c = '-' ∨ c.isDigit = true) (s : List Char) :
    readValue? (fuel + 1) (c :: s) = (readNumber? (c :: s)).map fun r => (.number, r) := by
  rw [readValue?, skipSpace_cons (isSpace_head_of_number h)]
  split
  case h_7 => rfl
  all_goals
    rename_i heq
    exact absurd (List.cons.inj heq).1 (ne_head_of_number h (by decide) (by decide))

theorem readValue?_string (s : List Char) : readValue? (fuel + 1) ('"' :: s) =
    (readString? s).map fun (t, r) => (.string t, r) := by
  rw [readValue?, skipSpace_cons (by decide)]
  rfl

theorem readValue?_emptyArray {b : List Char} (h : Blank b) (r : List Char) :
    readValue? (fuel + 1) ('[' :: (b ++ ']' :: r)) = some (.array [], r) := by
  rw [readValue?, skipSpace_cons (by decide)]
  simp only [skipSpace_append h, skipSpace_cons (c := ']') (by decide)]

theorem readValue?_array {s : List Char} (h : ∀ t, skipSpace s ≠ ']' :: t) :
    readValue? (fuel + 1) ('[' :: s) = (readItems? fuel s).map fun (js, r) => (.array js, r) := by
  rw [readValue?, skipSpace_cons (by decide)]
  simp only [readItems?_skipSpace]

theorem readValue?_emptyObject {b : List Char} (h : Blank b) (r : List Char) :
    readValue? (fuel + 1) ('\x7b' :: (b ++ '\x7d' :: r)) = some (.object [], r) := by
  rw [readValue?, skipSpace_cons (by decide)]
  simp only [skipSpace_append h, skipSpace_cons (c := '\x7d') (by decide)]

theorem readValue?_object {s : List Char} (h : ∀ t, skipSpace s ≠ '\x7d' :: t) :
    readValue? (fuel + 1) ('\x7b' :: s) =
      (readMembers? fuel s).map fun (ms, r) => (.object ms, r) := by
  rw [readValue?, skipSpace_cons (by decide)]
  simp only [readMembers?_skipSpace]

variable {fuel}

theorem readItems?_last {s t r : List Char} {j : Json} (item : readValue? fuel s = some (j, t))
    (closed : skipSpace t = ']' :: r) : readItems? (fuel + 1) s = some ([j], r) := by
  simp only [readItems?, item, closed, Option.bind_eq_bind, Option.bind_some]

theorem readItems?_more {s t u r : List Char} {j : Json} {js : List Json}
    (item : readValue? fuel s = some (j, t)) (comma : skipSpace t = ',' :: u)
    (more : readItems? fuel u = some (js, r)) : readItems? (fuel + 1) s = some (j :: js, r) := by
  simp only [readItems?, item, comma, more, Option.bind_eq_bind, Option.bind_some, Option.map_some]

/-- A key with its colon, and the value behind it. -/
def ReadsMember (fuel : Nat) (s : List Char) (k : Option (List Char)) (j : Json)
    (rest : List Char) : Prop :=
  ∃ body t u, skipSpace s = '"' :: body ∧ readString? body = some (k, t) ∧
    skipSpace t = ':' :: u ∧ readValue? fuel u = some (j, rest)

theorem readMembers?_last {s t r : List Char} {k : Option (List Char)} {j : Json}
    (member : ReadsMember fuel s k j t) (closed : skipSpace t = '\x7d' :: r) :
    readMembers? (fuel + 1) s = some ([(k, j)], r) := by
  obtain ⟨body, t, u, quote, key, colon, value⟩ := member
  simp only [readMembers?, quote, key, colon, value, closed, Option.bind_eq_bind, Option.bind_some]

theorem readMembers?_more {s t u r : List Char} {k : Option (List Char)} {j : Json}
    {ms : List Member} (member : ReadsMember fuel s k j t)
    (comma : skipSpace t = ',' :: u) (more : readMembers? fuel u = some (ms, r)) :
    readMembers? (fuel + 1) s = some ((k, j) :: ms, r) := by
  obtain ⟨body, t, u, quote, key, colon, value⟩ := member
  simp only [readMembers?, quote, key, colon, value, comma, more, Option.bind_eq_bind,
    Option.bind_some, Option.map_some]

theorem readsMember {a q b c v : List Char} {k : Option (List Char)} {j : Json} {rest : List Char}
    (front : Blank a) (key : SpellsString k q) (colon : Blank b) (gap : Blank c)
    (value : readValue? fuel v = some (j, rest)) :
    ReadsMember fuel (a ++ (q ++ (b ++ ':' :: (c ++ v)))) k j rest := by
  obtain ⟨body, hbody, hkey⟩ := readString?_of_spellsString key (b ++ ':' :: (c ++ v))
  refine ⟨body, _, c ++ v, ?_, hkey, ?_, ?_⟩
  · rw [skipSpace_append front, hbody, skipSpace_cons (by decide)]
  · rw [skipSpace_append colon, skipSpace_cons (by decide)]
  · rw [readValue?_blank fuel gap, value]

end

/-- How a value begins. -/
theorem head_of_value {j : Json} {s : List Char} (h : Spells (.value j) s) :
    ∃ c t, s = c :: t ∧ isSpace c = false ∧ c ≠ ']' := by
  cases h with
  | null => exact ⟨'n', _, rfl, by decide⟩
  | true => exact ⟨'t', _, rfl, by decide⟩
  | false => exact ⟨'f', _, rfl, by decide⟩
  | number number =>
    obtain ⟨c, t, rfl, hc⟩ := head_of_number number
    exact ⟨c, t, rfl, isSpace_head_of_number hc, ne_head_of_number hc (by decide) (by decide)⟩
  | string string => cases string <;> exact ⟨'"', _, rfl, by decide⟩
  | emptyArray blank => exact ⟨'[', _, rfl, by decide⟩
  | array items => exact ⟨'[', _, rfl, by decide⟩
  | emptyObject blank => exact ⟨'\x7b', _, rfl, by decide⟩
  | object members => exact ⟨'\x7b', _, rfl, by decide⟩

theorem skipSpace_items {js : List Json} {s : List Char} (h : Spells (.items js) s)
    (r t : List Char) : skipSpace (s ++ r) ≠ ']' :: t := by
  obtain ⟨a, v, j, u, front, item, rfl⟩ : ∃ a v j u, Blank a ∧ Spells (.value j) v ∧
      s = a ++ (v ++ u) := by
    cases h with
    | lastItem front item back => exact ⟨_, _, _, _, front, item, rfl⟩
    | item front item back more => exact ⟨_, _, _, _, front, item, rfl⟩
  obtain ⟨c, v, rfl, hspace, hc⟩ := head_of_value item
  rw [List.append_assoc, skipSpace_append front, List.cons_append, List.cons_append,
    skipSpace_cons hspace]
  exact fun heq => hc (List.cons.inj heq).1

theorem skipSpace_members {ms : List Member} {s : List Char}
    (h : Spells (.members ms) s) (r t : List Char) : skipSpace (s ++ r) ≠ '\x7d' :: t := by
  obtain ⟨a, q, k, u, front, key, rfl⟩ : ∃ a q k u, Blank a ∧ SpellsString k q ∧
      s = a ++ (q ++ u) := by
    cases h with
    | lastMember front key => exact ⟨_, _, _, _, front, key, rfl⟩
    | member front key => exact ⟨_, _, _, _, front, key, rfl⟩
  obtain ⟨body, hbody, -⟩ := readString?_of_spellsString key (u ++ r)
  rw [List.append_assoc, skipSpace_append front, List.append_assoc, hbody,
    skipSpace_cons (by decide)]
  exact fun heq => absurd (List.cons.inj heq).1 (by decide)

theorem ends_blank {b : List Char} (h : Blank b) {c : Char} (hc : c ∈ [',', ']', '\x7d'])
    (r : List Char) : Ends (b ++ c :: r) := by
  have closing : ∀ d ∈ [' ', '\n', '\t', '\r'] ++ [',', ']', '\x7d'],
      d.isDigit = false ∧ d ≠ '.' ∧ d ≠ 'e' ∧ d ≠ 'E' := by simp [Char.isDigit]
  cases b with
  | nil =>
    rintro d ⟨⟩
    exact closing _ (List.mem_append_right _ hc)
  | cons e b =>
    rintro d ⟨⟩
    exact closing _ (List.mem_append_left _ (h _ List.mem_cons_self))

/-- What the reader of a part makes of a text. -/
def Part.Read (fuel : Nat) (s r : List Char) : Part → Prop
  | value j => readValue? fuel s = some (j, r)
  | items js => readItems? fuel s = some (js, r)
  | members ms => readMembers? fuel s = some (ms, r)

theorem length_pos_of_spells {p : Part} {s : List Char} (h : Spells p s) : 0 < s.length := by
  cases p with
  | value j =>
    obtain ⟨c, t, rfl, -⟩ := head_of_value h
    exact Nat.succ_pos _
  | items js => cases h <;> simp only [List.length_append, List.length_cons] <;> omega
  | members ms => cases h <;> simp only [List.length_append, List.length_cons] <;> omega

/-- A part is read as it was spelled, and up to its end, if the fuel is enough for its length. What
follows a number has to end it; all other parts end by themselves. -/
theorem read_of_spells {p : Part} {s : List Char} (h : Spells p s) {fuel : Nat}
    (enough : s.length ≤ fuel) {r : List Char} (ends : p = .value .number → Ends r) :
    p.Read fuel (s ++ r) r := by
  -- the reader spends its fuel part by part, so the induction is on the fuel
  induction fuel generalizing p s r with
  | zero => exact absurd enough (Nat.not_le.mpr (length_pos_of_spells h))
  | succ n ih =>
    have last {b : List Char} (back : Blank b) {c : Char} (hc : c ∈ [',', ']', '\x7d'])
        (r : List Char) {j : Json} {s : List Char} (value : Spells (.value j) s)
        (enough : s.length ≤ n) : readValue? n (s ++ (b ++ c :: r)) = some (j, b ++ c :: r) :=
      ih value enough fun _ => ends_blank back hc r
    cases h with
    | null => rfl
    | true => rfl
    | false => rfl
    | number number =>
      obtain ⟨c, t, rfl, hc⟩ := head_of_number number
      show readValue? (n + 1) _ = _
      rw [List.cons_append, readValue?_number n hc, ← List.cons_append,
        readNumber?_append number (ends rfl)]
      rfl
    | string string =>
      obtain ⟨body, hbody, hread⟩ := readString?_of_spellsString string r
      show readValue? (n + 1) _ = _
      rw [hbody, readValue?_string, hread]
      rfl
    | @emptyArray b blank =>
      show readValue? (n + 1) _ = _
      rw [List.cons_append, List.append_assoc]
      exact readValue?_emptyArray n blank r
    | array items =>
      show readValue? (n + 1) _ = _
      have hitems : readItems? n _ = _ := ih items (Nat.le_of_succ_le_succ enough) (r := r) nofun
      rw [List.cons_append, readValue?_array n (skipSpace_items items r), hitems]
      rfl
    | emptyObject blank =>
      show readValue? (n + 1) _ = _
      rw [List.cons_append, List.append_assoc]
      exact readValue?_emptyObject n blank r
    | object members =>
      show readValue? (n + 1) _ = _
      have hmembers : readMembers? n _ = _ :=
        ih members (Nat.le_of_succ_le_succ enough) (r := r) nofun
      rw [List.cons_append, readValue?_object n (skipSpace_members members r), hmembers]
      rfl
    | @lastItem j a s b front item back =>
      simp only [List.length_append, List.length_cons, List.length_nil] at enough
      simp only [List.append_assoc, List.cons_append, List.nil_append]
      have hitem := last back (c := ']') (by decide) r item (by omega)
      rw [← readValue?_blank n front] at hitem
      exact readItems?_last hitem (by rw [skipSpace_append back, skipSpace_cons (by decide)])
    | @item j js a s b u front item back more =>
      simp only [List.length_append, List.length_cons] at enough
      simp only [List.append_assoc, List.cons_append]
      have hitem := last back (c := ',') (by decide) (u ++ r) item (by omega)
      have hmore : readItems? n _ = _ := ih more (by omega) (r := r) nofun
      rw [← readValue?_blank n front] at hitem
      exact readItems?_more hitem (by rw [skipSpace_append back, skipSpace_cons (by decide)]) hmore
    | @lastMember k j a q b c s d front key colon gap value back =>
      simp only [List.length_append, List.length_cons, List.length_nil] at enough
      simp only [List.append_assoc, List.cons_append, List.nil_append]
      have hvalue := last back (c := '\x7d') (by decide) r value (by omega)
      exact readMembers?_last (readsMember front key colon gap hvalue)
        (by rw [skipSpace_append back, skipSpace_cons (by decide)])
    | @member k j ms a q b c s d u front key colon gap value back more =>
      simp only [List.length_append, List.length_cons] at enough
      simp only [List.append_assoc, List.cons_append]
      have hvalue := last back (c := ',') (by decide) (u ++ r) value (by omega)
      have hmore : readMembers? n _ = _ := ih more (by omega) (r := r) nofun
      exact readMembers?_more (readsMember front key colon gap hvalue)
        (by rw [skipSpace_append back, skipSpace_cons (by decide)]) hmore

/-- A value that ends by itself is read, whatever follows its text. -/
theorem readValue?_text {j : Json} {s : List Char} (h : SpellsText j s) (closed : j ≠ .number) :
    ∃ b, Blank b ∧ ∀ t, readValue? ((s ++ t).length + 1) (s ++ t) = some (j, b ++ t) := by
  obtain @⟨a, v, b, front, value, back⟩ := h
  refine ⟨b, back, fun t => ?_⟩
  rw [List.append_assoc, List.append_assoc, readValue?_blank _ front]
  refine read_of_spells value ?_ fun hnumber => absurd (Part.value.inj hnumber) closed
  simp only [List.length_append]
  omega

theorem ofText?_append_blank {j : Json} {s t : List Char} (h : SpellsText j s)
    (closed : j ≠ .number) (ht : Blank t) : ofText? (s ++ t) = some j := by
  obtain ⟨b, hb, hread⟩ := readValue?_text h closed
  have hskip : skipSpace (b ++ t) = [] := by rw [skipSpace_append hb, skipSpace_eq_nil_iff.mpr ht]
  simp only [ofText?, hread, hskip, Option.bind_eq_bind, Option.bind_some, List.isEmpty_nil, if_true]

/-- Nothing but blanks may follow. -/
theorem ofText?_append_eq_none {j : Json} {s t : List Char} (h : SpellsText j s)
    (closed : j ≠ .number) (ht : ¬ Blank t) : ofText? (s ++ t) = none := by
  obtain ⟨b, hb, hread⟩ := readValue?_text h closed
  have hskip : skipSpace (b ++ t) ≠ [] := by rwa [skipSpace_append hb, ne_eq, skipSpace_eq_nil_iff]
  simp only [ofText?, hread, Option.bind_eq_bind, Option.bind_some, List.isEmpty_iff, hskip, if_false]

end LiveLoader.Json
