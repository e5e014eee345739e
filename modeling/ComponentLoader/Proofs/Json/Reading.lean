import Mathlib.Control.Basic
import ComponentLoader.Proofs.Json.Literals

/-! A JSON value is read as it is written, so no two values have one text. -/
namespace List

variable {α β : Type} {f : α → β} {xs ys : List α}

/-- A list is known by its image if each of its elements is. -/
theorem eq_of_map_eq (known : ∀ x ∈ xs, ∀ y, f x = f y → x = y) (h : xs.map f = ys.map f) :
    xs = ys := by
  induction xs generalizing ys with
  | nil => exact (map_eq_nil_iff.mp h.symm).symm
  | cons x xs ih =>
    cases ys with
    | nil => cases h
    | cons y ys =>
      obtain ⟨first, rest⟩ := cons.inj h
      rw [known x mem_cons_self y first, ih (fun x hx => known x (mem_cons_of_mem _ hx)) rest]

end List

namespace ComponentLoader.Json

/-- Whatever holds of a value if it holds of the values in it holds of every value. -/
theorem induction {motive : Json → Prop} (null : motive .null) (bool : ∀ b, motive (.bool b))
    (number : ∀ n, motive (.number n)) (string : ∀ s, motive (.string s))
    (array : ∀ items, (∀ j ∈ items, motive j) → motive (.array items))
    (object : ∀ members, (∀ m ∈ members, motive m.2) → motive (.object members)) (j : Json) :
    motive j := by
  refine Json.rec (motive_1 := motive) (motive_2 := fun items => ∀ j ∈ items, motive j)
    (motive_3 := fun members => ∀ m ∈ members, motive m.2) (motive_4 := fun m => motive m.2)
    null bool number string array object nofun ?_ nofun ?_ (fun _ _ own => own) j
  · intro item items first rest k hk
    rcases List.mem_cons.mp hk with rfl | hk
    · exact first
    · exact rest k hk
  · intro m members first rest k hk
    rcases List.mem_cons.mp hk with rfl | hk
    · exact first
    · exact rest k hk

mutual

def Input.ofJson : Json → Input
  | .null => .null
  | .bool value => .bool value
  | .number value => .number (some value)
  | .string value => .string (some value)
  | .array items => .array (Input.ofItems items)
  | .object members => .object (Input.ofMembers members)

def Input.ofItems : List Json → List Input
  | [] => []
  | item :: rest => Input.ofJson item :: Input.ofItems rest

def Input.ofMembers : List (String × Json) → List (Option String × Input)
  | [] => []
  | (key, value) :: rest => (some key, Input.ofJson value) :: Input.ofMembers rest

end

/-- Nothing that a number could go on with. -/
def Ends (rest : List Char) : Prop :=
  ∀ c ∈ rest.head?, c.isDigit = false ∧ c ∉ ['.', 'e', 'E']

/-- Wherever a value ends it is read as it is written, if the bound on the steps allows it. -/
def ReadsBack (j : Json) : Prop :=
  ∀ bound rest, 2 * j.render.toList.length ≤ bound → Ends rest →
    Input.readValue bound (j.render.toList ++ rest) = some (.ofJson j, rest)

namespace Input

theorem skipSpace_of_ne {c : Char} {s : List Char} (h : c ∉ [' ', '\n', '\t', '\r']) :
    skipSpace (c :: s) = c :: s := by
  simp only [List.mem_cons, List.not_mem_nil, or_false, not_or] at h
  obtain ⟨space, line, tab, feed⟩ := h
  simp [skipSpace, space, line, tab, feed]

theorem digits_append {ds rest : List Char} (all : ∀ c ∈ ds, c.isDigit = true) (some : ds ≠ [])
    (ends : ∀ c ∈ rest.head?, c.isDigit = false) : digits (ds ++ rest) = .some (ds, rest) := by
  have stops : rest.takeWhile Char.isDigit = [] ∧ rest.dropWhile Char.isDigit = rest := by
    cases rest with
    | nil => exact ⟨rfl, rfl⟩
    | cons c rest =>
      have other := ends c rfl
      exact ⟨List.takeWhile_cons_of_neg (by simp [other]),
        List.dropWhile_cons_of_neg (by simp [other])⟩
  have filled : ds.isEmpty = false := by simpa using some
  simp only [digits, List.takeWhile_append_of_pos all, List.dropWhile_append_of_pos all, stops.1,
    stops.2, List.append_nil, filled, Bool.false_eq_true, if_false]

theorem readFraction_of_ends {rest : List Char} (ends : Ends rest) :
    readFraction rest = some (false, rest) := by
  cases rest with
  | nil => rfl
  | cons c rest =>
    obtain ⟨-, other⟩ := ends c rfl
    simp only [List.mem_cons, List.not_mem_nil, or_false, not_or] at other
    obtain ⟨point, small, great⟩ := other
    simp [readFraction, point, small, great]

theorem readNumber_repr (n : Nat) {rest : List Char} (ends : Ends rest) :
    readNumber (n.repr.toList ++ rest) = some (some n, rest) := by
  have written : n.repr.toList = Nat.toDigits 10 n := by simp
  have all : ∀ c ∈ Nat.toDigits 10 n, c.isDigit = true :=
    fun c => Nat.isDigit_of_mem_toDigits (by decide) (by decide)
  obtain ⟨d, more, shape⟩ := List.exists_cons_of_ne_nil (Nat.toDigits_ne_nil (n := n) (b := 10))
  have unsigned : d ≠ '-' := by
    rintro rfl
    exact absurd (all '-' (shape ▸ List.mem_cons_self)) (by decide)
  have proper : ((Nat.toDigits 10 n).length = 1 ∨ (Nat.toDigits 10 n).head? ≠ some '0') := by
    rcases Nat.eq_zero_or_pos n with rfl | positive
    · exact .inl rfl
    · exact .inr (head?_toDigits positive)
  have read : digits (d :: (more ++ rest)) = some (Nat.toDigits 10 n, rest) := by
    have own : digits (Nat.toDigits 10 n ++ rest) = some (Nat.toDigits 10 n, rest) :=
      digits_append all Nat.toDigits_ne_nil fun c hc => (ends c hc).1
    rw [shape] at own ⊢
    exact own
  rw [written, shape, List.cons_append]
  simp [readNumber, unsigned, read, readFraction_of_ends ends, proper, numberOf_toDigits]

end Input

open Input (readValue readItems readMembers readString skipSpace_of_ne)

theorem exists_digit (n : Nat) : ∃ d more, n.repr.toList = d :: more ∧ d.isDigit = true := by
  have written : n.repr.toList = Nat.toDigits 10 n := by simp
  obtain ⟨d, more, shape⟩ := List.exists_cons_of_ne_nil (Nat.toDigits_ne_nil (n := n) (b := 10))
  refine ⟨d, more, written.trans shape, ?_⟩
  apply Nat.isDigit_of_mem_toDigits (b := 10) (n := n) (by decide) (by decide)
  rw [shape]
  exact List.mem_cons_self

/-- The text of a value begins with no space and closes nothing. -/
theorem exists_head (j : Json) :
    ∃ c s, j.render.toList = c :: s ∧ c ∉ [' ', '\n', '\t', '\r'] ∧ c ≠ ']' := by
  cases j with
  | null => exact ⟨'n', ['u', 'l', 'l'], by rw [render]; decide⟩
  | bool b =>
    cases b with
    | false => exact ⟨'f', ['a', 'l', 's', 'e'], by rw [render]; decide⟩
    | true => exact ⟨'t', ['r', 'u', 'e'], by rw [render]; decide⟩
  | number n =>
    obtain ⟨d, more, shape, digit⟩ := exists_digit n
    refine ⟨d, more, by rw [render, shape], ?_, ?_⟩
    · intro space
      simp only [List.mem_cons, List.not_mem_nil, or_false] at space
      rcases space with rfl | rfl | rfl | rfl <;> cases digit
    · rintro rfl
      cases digit
  | string s =>
    refine ⟨'"', s.toList.flatMap escapeChar ++ ['"'], ?_, by decide⟩
    rw [render, quote, String.toList_ofList]
    rfl
  | array items =>
    refine ⟨'[', (renderItems items ++ "]").toList, ?_, by decide⟩
    rw [render, String.append_assoc, String.toList_append]
    rfl
  | object members =>
    refine ⟨'\x7b', (renderMembers members ++ "\x7d").toList, ?_, by decide⟩
    rw [render, String.append_assoc, String.toList_append]
    rfl

theorem renderItems_toList (item next : Json) (items : List Json) :
    (renderItems (item :: next :: items)).toList =
      item.render.toList ++ ',' :: (renderItems (next :: items)).toList := by
  rw [renderItems, String.toList_append, String.toList_append, List.append_assoc]
  · rfl
  · exact List.cons_ne_nil next items

theorem renderMembers_single (key : String) (value : Json) :
    (renderMembers [(key, value)]).toList = (quote key).toList ++ ':' :: value.render.toList := by
  rw [renderMembers, String.toList_append, String.toList_append, List.append_assoc]
  rfl

theorem renderMembers_toList (key : String) (value : Json) (next : String × Json)
    (members : List (String × Json)) :
    (renderMembers ((key, value) :: next :: members)).toList =
      (quote key).toList ++
        ':' :: (value.render.toList ++ ',' :: (renderMembers (next :: members)).toList) := by
  rw [renderMembers]
  · simp only [String.toList_append, List.append_assoc]
    rfl
  · exact List.cons_ne_nil next members

theorem exists_head_items (item : Json) (items : List Json) :
    ∃ c s, (renderItems (item :: items)).toList = c :: s ∧ c ∉ [' ', '\n', '\t', '\r'] ∧
      c ≠ ']' := by
  obtain ⟨c, s, begins, plain⟩ := exists_head item
  cases items with
  | nil => exact ⟨c, s, by rw [renderItems, begins], plain⟩
  | cons next items =>
    refine ⟨c, s ++ ',' :: (renderItems (next :: items)).toList, ?_, plain⟩
    rw [renderItems_toList, begins, List.cons_append]

theorem exists_head_members (m : String × Json) (members : List (String × Json)) :
    ∃ s, (renderMembers (m :: members)).toList = '"' :: s := by
  obtain ⟨key, value⟩ := m
  cases members with
  | nil => exact ⟨_, by rw [renderMembers_single, quote_append]⟩
  | cons next members => exact ⟨_, by rw [renderMembers_toList, quote_append]⟩

theorem ends_cons {c : Char} (h : c ∈ [',', ']', '\x7d']) (rest : List Char) :
    Ends (c :: rest) := by
  rintro d here
  obtain rfl := Option.some.inj here
  simp only [List.mem_cons, List.not_mem_nil, or_false] at h
  rcases h with rfl | rfl | rfl <;> decide

/-- It is enough to read a value with one step more than are counted. -/
theorem ReadsBack.intro {j : Json}
    (h : ∀ bound rest, 2 * j.render.toList.length ≤ bound + 1 → Ends rest →
      readValue (bound + 1) (j.render.toList ++ rest) = some (.ofJson j, rest)) : ReadsBack j := by
  intro bound rest enough ends
  obtain ⟨c, s, shape, -⟩ := exists_head j
  cases bound with
  | zero =>
    rw [shape] at enough
    cases enough
  | succ bound => exact h bound rest enough ends

theorem readsBack_null : ReadsBack .null := by
  apply ReadsBack.intro
  intro bound rest enough ends
  rw [render]
  change readValue (bound + 1) ('n' :: 'u' :: 'l' :: 'l' :: rest) = _
  rw [readValue, skipSpace_of_ne (by decide)]
  rfl

theorem readsBack_bool (b : Bool) : ReadsBack (.bool b) := by
  apply ReadsBack.intro
  intro bound rest enough ends
  rw [render]
  cases b with
  | false =>
    change readValue (bound + 1) ('f' :: 'a' :: 'l' :: 's' :: 'e' :: rest) = _
    rw [readValue, skipSpace_of_ne (by decide)]
    rfl
  | true =>
    change readValue (bound + 1) ('t' :: 'r' :: 'u' :: 'e' :: rest) = _
    rw [readValue, skipSpace_of_ne (by decide)]
    rfl

theorem readsBack_number (n : Nat) : ReadsBack (.number n) := by
  apply ReadsBack.intro
  intro bound rest enough ends
  obtain ⟨d, more, shape, digit⟩ := exists_digit n
  have other {c : Char} (h : c.isDigit = false) : d ≠ c := by
    rintro rfl
    rw [digit] at h
    cases h
  have read := Input.readNumber_repr n ends
  rw [render]
  rw [shape, List.cons_append] at read ⊢
  have space : d ∉ [' ', '\n', '\t', '\r'] := by
    simp [other (c := ' ') rfl, other (c := '\n') rfl, other (c := '\t') rfl,
      other (c := '\r') rfl]
  rw [readValue, skipSpace_of_ne space]
  simp [other (c := 'n') rfl, other (c := 't') rfl, other (c := 'f') rfl, other (c := '"') rfl,
    other (c := '[') rfl, other (c := '\x7b') rfl, read, Input.ofJson]

theorem readsBack_string (s : String) : ReadsBack (.string s) := by
  apply ReadsBack.intro
  intro bound rest enough ends
  rw [render, quote_append, readValue, skipSpace_of_ne (by decide)]
  simp [readString_quote, Input.ofJson]

section Lists

variable {bound : Nat} {s s' rest : List Char}

theorem readItems_last {item : Input} (h : readValue bound s = some (item, ']' :: rest)) :
    readItems (bound + 1) s = some ([item], rest) := by
  simp [readItems, h, skipSpace_of_ne]

theorem readItems_next {item : Input} {items : List Input}
    (first : readValue bound s = some (item, ',' :: s'))
    (others : readItems bound s' = some (items, rest)) :
    readItems (bound + 1) s = some (item :: items, rest) := by
  simp [readItems, first, others, skipSpace_of_ne]

theorem readMembers_last {key : String} {value : Input}
    (h : readValue bound s = some (value, '\x7d' :: rest)) :
    readMembers (bound + 1) ((quote key).toList ++ ':' :: s) =
      some ([(some key, value)], rest) := by
  rw [quote_append]
  simp [readMembers, readString_quote, h, skipSpace_of_ne]

theorem readMembers_next {key : String} {value : Input} {members : List (Option String × Input)}
    (first : readValue bound s = some (value, ',' :: s'))
    (others : readMembers bound s' = some (members, rest)) :
    readMembers (bound + 1) ((quote key).toList ++ ':' :: s) =
      some ((some key, value) :: members, rest) := by
  rw [quote_append]
  simp [readMembers, readString_quote, first, others, skipSpace_of_ne]

/-- Items are read as they are written, to the closing bracket. -/
theorem readItems_renderItems {items : List Json} (filled : items ≠ [])
    (each : ∀ j ∈ items, ReadsBack j)
    (enough : 2 * (renderItems items).toList.length < bound) :
    readItems bound ((renderItems items).toList ++ ']' :: rest) =
      some (Input.ofItems items, rest) := by
  induction items generalizing bound with
  | nil => exact absurd rfl filled
  | cons item items ih =>
    have first := each item List.mem_cons_self
    cases bound with
    | zero => cases enough
    | succ bound =>
      cases items with
      | nil =>
        rw [renderItems] at enough ⊢
        exact readItems_last (first bound _ (by omega) (ends_cons (by decide) rest))
      | cons next items =>
        rw [renderItems_toList] at enough ⊢
        rw [List.length_append, List.length_cons] at enough
        rw [List.append_assoc, List.cons_append]
        refine readItems_next (first bound _ (by omega) (ends_cons (by decide) _)) ?_
        exact ih (List.cons_ne_nil next items)
          (fun j hj => each j (List.mem_cons_of_mem item hj)) (by omega)

/-- Members are read as they are written, to the closing brace. -/
theorem readMembers_renderMembers {members : List (String × Json)} (filled : members ≠ [])
    (each : ∀ m ∈ members, ReadsBack m.2)
    (enough : 2 * (renderMembers members).toList.length < bound) :
    readMembers bound ((renderMembers members).toList ++ '\x7d' :: rest) =
      some (Input.ofMembers members, rest) := by
  induction members generalizing bound with
  | nil => exact absurd rfl filled
  | cons member members ih =>
    obtain ⟨key, value⟩ := member
    have first : ReadsBack value := each (key, value) List.mem_cons_self
    cases bound with
    | zero => cases enough
    | succ bound =>
      cases members with
      | nil =>
        rw [renderMembers_single] at enough ⊢
        rw [List.length_append, List.length_cons] at enough
        rw [List.append_assoc, List.cons_append]
        exact readMembers_last (first bound _ (by omega) (ends_cons (by decide) rest))
      | cons next members =>
        rw [renderMembers_toList] at enough ⊢
        simp only [List.length_append, List.length_cons] at enough
        simp only [List.append_assoc, List.cons_append]
        refine readMembers_next (first bound _ (by omega) (ends_cons (by decide) _)) ?_
        exact ih (List.cons_ne_nil next members)
          (fun m hm => each m (List.mem_cons_of_mem _ hm)) (by omega)

end Lists

theorem readsBack_array {items : List Json} (each : ∀ j ∈ items, ReadsBack j) :
    ReadsBack (.array items) := by
  apply ReadsBack.intro
  intro bound rest enough ends
  have shape : (render (.array items)).toList = '[' :: ((renderItems items).toList ++ [']']) := by
    rw [render, String.toList_append, String.toList_append]
    rfl
  rw [shape] at enough ⊢
  rw [List.cons_append, List.append_assoc, List.singleton_append, readValue,
    skipSpace_of_ne (by decide)]
  cases items with
  | nil =>
    rw [renderItems]
    simp [skipSpace_of_ne, Input.ofJson, Input.ofItems]
  | cons item items =>
    obtain ⟨c, t, begins, space, opens⟩ := exists_head_items item items
    have read : readItems bound ((renderItems (item :: items)).toList ++ ']' :: rest) =
        some (Input.ofItems (item :: items), rest) := by
      apply readItems_renderItems (List.cons_ne_nil item items) each
      simp only [List.length_cons, List.length_append, List.length_nil] at enough
      omega
    rw [begins, List.cons_append] at read ⊢
    simp [skipSpace_of_ne space, opens, read, Input.ofJson]

theorem readsBack_object {members : List (String × Json)} (each : ∀ m ∈ members, ReadsBack m.2) :
    ReadsBack (.object members) := by
  apply ReadsBack.intro
  intro bound rest enough ends
  have shape : (render (.object members)).toList =
      '\x7b' :: ((renderMembers members).toList ++ ['\x7d']) := by
    rw [render, String.toList_append, String.toList_append]
    rfl
  rw [shape] at enough ⊢
  rw [List.cons_append, List.append_assoc, List.singleton_append, readValue,
    skipSpace_of_ne (by decide)]
  cases members with
  | nil =>
    rw [renderMembers]
    simp [skipSpace_of_ne, Input.ofJson, Input.ofMembers]
  | cons member members =>
    obtain ⟨t, begins⟩ := exists_head_members member members
    have read : readMembers bound ((renderMembers (member :: members)).toList ++ '\x7d' :: rest) =
        some (Input.ofMembers (member :: members), rest) := by
      apply readMembers_renderMembers (List.cons_ne_nil member members) each
      simp only [List.length_cons, List.length_append, List.length_nil] at enough
      omega
    rw [begins, List.cons_append] at read ⊢
    simp [skipSpace_of_ne, read, Input.ofJson]

theorem readsBack (j : Json) : ReadsBack j := by
  induction j using induction with
  | null => exact readsBack_null
  | bool b => exact readsBack_bool b
  | number n => exact readsBack_number n
  | string s => exact readsBack_string s
  | array items each => exact readsBack_array each
  | object members each => exact readsBack_object each

/-- The text of a value is read as that value. -/
theorem parse_render (j : Json) : Input.parse j.render = some (.ofJson j) := by
  have read := readsBack j (2 * j.render.toList.length + 2) [] (Nat.le_add_right _ _) nofun
  rw [List.append_nil] at read
  simp only [Input.parse, read]
  rfl

theorem ofItems_eq (items : List Json) : Input.ofItems items = items.map Input.ofJson := by
  induction items with
  | nil => rfl
  | cons item items ih => rw [Input.ofItems, ih, List.map_cons]

theorem ofMembers_eq (members : List (String × Json)) :
    Input.ofMembers members = members.map fun m => (some m.1, Input.ofJson m.2) := by
  induction members with
  | nil => rfl
  | cons m members ih => rw [Input.ofMembers, ih, List.map_cons]

/-- A value is known by what it is read as. -/
theorem ofJson_inj {j k : Json} (h : Input.ofJson j = Input.ofJson k) : j = k := by
  induction j using induction generalizing k with
  | null | bool b | number n | string s =>
    cases k <;> simp_all [Input.ofJson]
  | array items each =>
    cases k with
    | array items' =>
      rw [Input.ofJson, Input.ofJson, ofItems_eq, ofItems_eq] at h
      rw [List.eq_of_map_eq (fun j hj k same => each j hj same) (Input.array.inj h)]
    | _ => simp [Input.ofJson] at h
  | object members each =>
    cases k with
    | object members' =>
      rw [Input.ofJson, Input.ofJson, ofMembers_eq, ofMembers_eq] at h
      refine congrArg Json.object (List.eq_of_map_eq (fun m hm m' same => ?_) (Input.object.inj h))
      obtain ⟨key, value⟩ := Prod.mk.inj same
      exact Prod.ext (Option.some.inj key) (each m hm value)
    | _ => simp [Input.ofJson] at h

/-- No two values have one text. -/
theorem render_inj {j k : Json} (h : j.render = k.render) : j = k := by
  have read := parse_render j
  rw [h, parse_render] at read
  exact (ofJson_inj (Option.some.inj read)).symm

end ComponentLoader.Json
