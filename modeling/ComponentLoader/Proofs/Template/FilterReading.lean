import ComponentLoader.Proofs.Text.Bytes
import ComponentLoader.Template.Filter

/-! How an interpolation is read for its pipes, one step after the other: most characters are read
alone, a hidden character is read with the backslash that hides it, and a doubled pipe at once. The
bytes of a text are read in the same way, though a backslash hides a single one of them: those of a
character past ASCII are neither quotes nor brackets nor pipes, so every cut falls between two
characters. -/
namespace ComponentLoader.Template.Filter

open Text.Utf8 (byte)

def IsQuote (c : Char) : Prop := c = '"' ∨ c = '\'' ∨ c = '`'

/-- The quotes that a character which is read alone stands in, and those and the brackets that what
follows it stands in. -/
def after : Option Char → Nat → Char → Option Char × Nat
  | some q, depth, c => (if c = q then none else some q, depth)
  | none, depth, c =>
    if c = '"' ∨ c = '\'' ∨ c = '`' then (some c, depth)
    else if c = '(' ∨ c = '[' ∨ c = '\x7b' then (none, depth + 1)
    else if c = ')' ∨ c = ']' ∨ c = '\x7d' then (none, depth - 1)
    else (none, depth)

/-- The character hides nothing and is no pipe that counts. -/
def Alone (quote : Option Char) (depth : Nat) (c : Char) : Prop :=
  (quote ≠ none → c ≠ '\\') ∧ (quote = none → depth = 0 → c ≠ '|')

variable {quote : Option Char} {depth : Nat} {c : Char} {s : List Char}

theorem cut_nil (quote : Option Char) (depth : Nat) : cut quote depth [] = [[]] := by
  rw [cut]

theorem cut_alone (h : Alone quote depth c) (s : List Char) :
    cut quote depth (c :: s) =
      extend c (cut (after quote depth c).1 (after quote depth c).2 s) := by
  cases quote with
  | some q =>
    have shows : c ≠ '\\' := h.1 (Option.some_ne_none q)
    rw [cut.eq_def]
    simp only [if_neg shows, after]
  | none =>
    have pipe : ¬ (c = '|' ∧ depth = 0) := fun both => h.2 rfl both.2 both.1
    rw [cut.eq_def]
    simp only [after, if_neg pipe]
    by_cases isQuote : c = '"' ∨ c = '\'' ∨ c = '`'
    · simp only [if_pos isQuote]
    by_cases opens : c = '(' ∨ c = '[' ∨ c = '\x7b'
    · simp only [if_neg isQuote, if_pos opens]
    by_cases closes : c = ')' ∨ c = ']' ∨ c = '\x7d'
    · simp only [if_neg isQuote, if_neg opens, if_pos closes]
    · simp only [if_neg isQuote, if_neg opens, if_neg closes]

theorem cut_hidden (q : Char) (depth : Nat) (c : Char) (s : List Char) :
    cut (some q) depth ('\\' :: c :: s) = extend '\\' (extend c (cut (some q) depth s)) := by
  rw [cut, if_pos rfl]

theorem cut_lone (q : Char) (depth : Nat) : cut (some q) depth ['\\'] = [['\\']] := by
  rw [cut, if_pos rfl]

theorem cut_pipes (s : List Char) :
    cut none 0 ('|' :: '|' :: s) = extend '|' (extend '|' (cut none 0 s)) := by
  rw [cut]
  rfl

theorem cut_pipe (single : s.head? ≠ some '|') : cut none 0 ('|' :: s) = [] :: cut none 0 s := by
  rw [cut.eq_def]
  cases s with
  | nil => rfl
  | cons c s =>
    have other : c ≠ '|' := fun same => single (congrArg some same)
    simp [other]

/-- What is kept by every step of reading holds of all that is read. -/
theorem reading {motive : Option Char → Nat → List Char → Prop}
    (nil : ∀ quote depth, motive quote depth [])
    (alone : ∀ quote depth c s, Alone quote depth c →
      motive (after quote depth c).1 (after quote depth c).2 s → motive quote depth (c :: s))
    (lone : ∀ q depth, motive (some q) depth ['\\'])
    (hidden : ∀ q depth c s, motive (some q) depth s → motive (some q) depth ('\\' :: c :: s))
    (pipes : ∀ s, motive none 0 s → motive none 0 ('|' :: '|' :: s))
    (pipe : ∀ s, s.head? ≠ some '|' → motive none 0 s → motive none 0 ('|' :: s))
    (quote : Option Char) (depth : Nat) (s : List Char) : motive quote depth s := by
  induction length : s.length using Nat.strongRecOn generalizing quote depth s with
  | _ n ih =>
    subst length
    cases s with
    | nil => exact nil quote depth
    | cons c s =>
      have rest (quote : Option Char) (depth : Nat) : motive quote depth s :=
        ih _ (Nat.lt_succ_self s.length) quote depth s rfl
      by_cases own : Alone quote depth c
      · exact alone quote depth c s own (rest _ _)
      · cases quote with
        | some q =>
          obtain rfl : c = '\\' :=
            Decidable.byContradiction fun shows => own ⟨fun _ => shows, nofun⟩
          cases s with
          | nil => exact lone q depth
          | cons c s =>
            exact hidden q depth c s (ih _ (Nat.lt_succ_of_lt (Nat.lt_succ_self _)) _ _ s rfl)
        | none =>
          obtain ⟨rfl, rfl⟩ : c = '|' ∧ depth = 0 :=
            Decidable.byContradiction fun other =>
              own ⟨fun some => absurd rfl some, fun _ zero same => other ⟨same, zero⟩⟩
          by_cases double : s.head? = some '|'
          · obtain ⟨s, rfl⟩ : ∃ s', s = '|' :: s' := List.head?_eq_some_iff.mp double
            exact pipes s (ih _ (Nat.lt_succ_of_lt (Nat.lt_succ_self _)) _ _ s rfl)
          · exact pipe s double (rest _ _)

/-- The parts of the bytes of an interpolation between pipes, from a place within the given quotes
and number of brackets. A backslash in quotes hides the byte after it. -/
def cutBytes : (quote : Option UInt8) → (depth : Nat) → List UInt8 → List (List UInt8)
  | _, _, [] => [[]]
  | some q, depth, b :: s =>
    if b = byte '\\' then
      match s with
      | [] => [[b]]
      | hidden :: s => (cutBytes (some q) depth s).modifyHead (b :: hidden :: ·)
    else (cutBytes (if b = q then none else some q) depth s).modifyHead (b :: ·)
  | none, depth, b :: s =>
    if b = byte '"' ∨ b = byte '\'' ∨ b = byte '`' then
      (cutBytes (some b) depth s).modifyHead (b :: ·)
    else if b = byte '(' ∨ b = byte '[' ∨ b = byte '\x7b' then
      (cutBytes none (depth + 1) s).modifyHead (b :: ·)
    else if b = byte ')' ∨ b = byte ']' ∨ b = byte '\x7d' then
      (cutBytes none (depth - 1) s).modifyHead (b :: ·)
    else if b = byte '|' ∧ depth = 0 then
      match s with
      | [] => [[], []]
      | next :: rest =>
        if next = byte '|' then (cutBytes none 0 rest).modifyHead (b :: next :: ·)
        else [] :: cutBytes none 0 (next :: rest)
    else (cutBytes none depth s).modifyHead (b :: ·)

theorem extend_cons (c : Char) (part : List Char) (parts : List (List Char)) :
    extend c (part :: parts) = (c :: part) :: parts := rfl

theorem exists_cut (quote : Option Char) (depth : Nat) (s : List Char) :
    ∃ part parts, cut quote depth s = part :: parts :=
  List.exists_cons_of_ne_nil (cut_ne_nil quote depth s)

def Quoted (quote : Option Char) : Prop := ∀ q, quote = some q → IsQuote q

theorem IsQuote.ascii {q : Char} (h : IsQuote q) : q.toNat < 0x80 := by
  obtain rfl | rfl | rfl := h <;> decide

theorem Quoted.after (h : Quoted quote) (depth : Nat) (c : Char) :
    Quoted (Filter.after quote depth c).1 := by
  intro q same
  cases quote with
  | some q' =>
    simp only [Filter.after] at same
    split at same
    · cases same
    · exact h q same
  | none =>
    simp only [Filter.after] at same
    split at same
    · next isQuote =>
      obtain rfl := Option.some.inj same
      exact isQuote
    split at same
    · cases same
    split at same <;> cases same

theorem cutBytes_high (h : Quoted quote) {b : UInt8} (high : Text.Utf8.IsHigh b) (depth : Nat)
    (t : List UInt8) :
    cutBytes (quote.map byte) depth (b :: t) =
      (cutBytes (quote.map byte) depth t).modifyHead (b :: ·) := by
  have other {c : Char} (ascii : c.toNat < 0x80) : b ≠ byte c :=
    Text.Utf8.byte_ne_of_isHigh high ascii
  cases quote with
  | some q =>
    rw [Option.map_some, cutBytes.eq_def]
    simp only [if_neg (other (c := '\\') (by decide)), if_neg (other (h q rfl).ascii)]
  | none =>
    rw [Option.map_none, cutBytes.eq_def]
    simp [other]

theorem cutBytes_alone (h : Quoted quote) (own : Alone quote depth c) (ascii : c.toNat < 0x80)
    (t : List UInt8) :
    cutBytes (quote.map byte) depth (byte c :: t) =
      (cutBytes ((after quote depth c).1.map byte) (after quote depth c).2 t).modifyHead
        (byte c :: ·) := by
  have same {d : Char} (hd : d.toNat < 0x80) : byte c = byte d ↔ c = d :=
    Text.Utf8.byte_inj ascii hd
  cases quote with
  | some q =>
    have shows : c ≠ '\\' := own.1 (Option.some_ne_none q)
    rw [Option.map_some, cutBytes.eq_def, after]
    simp only [if_neg (mt (same (d := '\\') (by decide)).mp shows)]
    by_cases closes : c = q
    · simp [closes]
    · simp [closes, same (h q rfl).ascii]
  | none =>
    have pipe : ¬ (c = '|' ∧ depth = 0) := fun both => own.2 rfl both.2 both.1
    rw [Option.map_none, cutBytes.eq_def]
    simp only [same, Char.reduceToNat, Nat.reduceLT, pipe, after, if_false]
    by_cases isQuote : c = '"' ∨ c = '\'' ∨ c = '`'
    · simp only [if_pos isQuote, Option.map_some]
    by_cases opens : c = '(' ∨ c = '[' ∨ c = '\x7b'
    · simp only [if_neg isQuote, if_pos opens, Option.map_none]
    by_cases closes : c = ')' ∨ c = ']' ∨ c = '\x7d'
    · simp only [if_neg isQuote, if_neg opens, if_pos closes, Option.map_none]
    · simp only [if_neg isQuote, if_neg opens, if_neg closes, Option.map_none]

theorem cutBytes_append_high (h : Quoted quote) {bs : List UInt8}
    (high : ∀ b ∈ bs, Text.Utf8.IsHigh b) (depth : Nat) (t : List UInt8) :
    cutBytes (quote.map byte) depth (bs ++ t) =
      (cutBytes (quote.map byte) depth t).modifyHead (bs ++ ·) := by
  induction bs with
  | nil => exact (List.modifyHead_id ▸ rfl)
  | cons b bs ih =>
    rw [List.cons_append, cutBytes_high h (high b List.mem_cons_self),
      ih fun b' mem => high b' (List.mem_cons_of_mem b mem), List.modifyHead_modifyHead]
    rfl

open Text.Utf8 (encode encode_cons head?_encode)

theorem after_of_not_ascii (h : Quoted quote) (depth : Nat) (past : ¬ c.toNat < 0x80) :
    after quote depth c = (quote, depth) := by
  have other {d : Char} (ascii : d.toNat < 0x80) : c ≠ d := by
    rintro rfl
    exact past ascii
  cases quote with
  | some q => rw [after, if_neg (other (h q rfl).ascii)]
  | none => simp [after, other]

/-- Of a hidden character the first byte is hidden, and the others mean nothing. -/
theorem cutBytes_hidden {q : Char} (h : IsQuote q) (depth : Nat) (c : Char) (t : List UInt8) :
    cutBytes (some (byte q)) depth (byte '\\' :: (String.utf8EncodeChar c ++ t)) =
      (cutBytes (some (byte q)) depth t).modifyHead fun part =>
        byte '\\' :: (String.utf8EncodeChar c ++ part) := by
  have hides (b : UInt8) (t : List UInt8) : cutBytes (some (byte q)) depth (byte '\\' :: b :: t) =
      (cutBytes (some (byte q)) depth t).modifyHead (byte '\\' :: b :: ·) := if_pos rfl
  have quoted : Quoted (some q) := fun q' same => Option.some.inj same ▸ h
  obtain ⟨b, bs, bytes, -, others⟩ := Text.Utf8.exists_encodeChar c
  have further := cutBytes_append_high quoted (fun b' hb => (others b' hb).isHigh) depth t
  rw [Option.map_some] at further
  rw [bytes, List.cons_append, hides, further, List.modifyHead_modifyHead]
  rfl

theorem cutBytes_pipes (t : List UInt8) : cutBytes none 0 (byte '|' :: byte '|' :: t) =
    (cutBytes none 0 t).modifyHead (byte '|' :: byte '|' :: ·) := by
  rw [cutBytes.eq_def]
  rfl

theorem cutBytes_pipe {t : List UInt8} (single : t.head? ≠ some (byte '|')) :
    cutBytes none 0 (byte '|' :: t) = [] :: cutBytes none 0 t := by
  rw [cutBytes.eq_def]
  cases t with
  | nil => rfl
  | cons b t =>
    have other : b ≠ byte '|' := fun same => single (congrArg some same)
    exact if_neg other

/-- Cutting the bytes of an interpolation gives the bytes of its parts. -/
theorem cutBytes_encode (h : Quoted quote) (depth : Nat) (s : List Char) :
    cutBytes (quote.map byte) depth (encode s) = (cut quote depth s).map encode := by
  have backslash (s : List Char) : encode ('\\' :: s) = byte '\\' :: encode s := rfl
  have bar (s : List Char) : encode ('|' :: s) = byte '|' :: encode s := rfl
  induction quote, depth, s using reading with
  | nil quote depth =>
    rw [cut_nil]
    exact cutBytes.eq_1 ..
  | alone quote depth c s own ih =>
    obtain ⟨part, parts, rest⟩ := exists_cut (after quote depth c).1 (after quote depth c).2 s
    have ih := ih (h.after depth c)
    rw [rest] at ih
    rw [cut_alone own, rest, extend_cons, List.map_cons, encode_cons, encode_cons]
    by_cases ascii : c.toNat < 0x80
    · rw [Text.Utf8.encodeChar_of_ascii ascii, List.singleton_append,
        cutBytes_alone h own ascii (encode s), ih]
      rfl
    · obtain ⟨b, bs, bytes, high, others⟩ := Text.Utf8.encodeChar_of_not_ascii ascii
      have all : ∀ b' ∈ b :: bs, Text.Utf8.IsHigh b' :=
        List.forall_mem_cons.mpr
          ⟨Nat.le_trans (by decide) high, fun b' hb => (others b' hb).isHigh⟩
      rw [after_of_not_ascii h depth ascii] at ih
      rw [bytes, cutBytes_append_high h all, ih]
      rfl
  | lone q depth =>
    rw [cut_lone]
    exact if_pos rfl
  | hidden q depth c s ih =>
    obtain ⟨part, parts, rest⟩ := exists_cut (some q) depth s
    have ih := ih h
    rw [rest, Option.map_some] at ih
    rw [cut_hidden, rest, extend_cons, extend_cons, List.map_cons, backslash, backslash,
      encode_cons, encode_cons, Option.map_some, cutBytes_hidden (h q rfl), ih]
    rfl
  | pipes s ih =>
    obtain ⟨part, parts, rest⟩ := exists_cut none 0 s
    have ih := ih nofun
    rw [rest, Option.map_none] at ih
    rw [cut_pipes, rest, extend_cons, extend_cons, List.map_cons, bar, bar, bar, bar,
      Option.map_none, cutBytes_pipes, ih]
    rfl
  | pipe s single ih =>
    have first := mt (head?_encode (by decide) s).mp single
    rw [cut_pipe single, bar, Option.map_none, cutBytes_pipe first]
    exact congrArg _ (ih nofun)

end ComponentLoader.Template.Filter
