import ComponentLoader.Proofs.Markup.RawText
import ComponentLoader.Proofs.Template.Decomposition

/-! The tokens of a text that goes on to a bracket. Where everything may stand and where only
interpolations and text may, the text is cut at different characters, but always into
literal stretches within which no interpolation begins and into the interpolations
themselves, so that both make up what the text is made of. -/
namespace ComponentLoader.Template

open Markup (Cursor Delimiters Dialect EndTagStands Head Mode Reads Token)

open Text (BeginsIn First)

def Piece.token : Piece → Token
  | .literal t => .text t
  | .interpolation t => .interpolation t

/-- Text is read up to the bracket with which `after` begins: everything may stand here, or only
text up to the end tag that stands there. -/
def HoldsUpTo (after : List Char) : Mode → Prop
  | .data => True
  | .replaceable element => EndTagStands element after
  | .raw _ => False

variable {d : Dialect} {c : Cursor} {h : Head} {s u : List Char}

theorem openAt_iff (named : d.delimiters.opening ≠ "") :
    d.delimiters.openAt s = true ↔ d.delimiters.opening.toList <+: s := by
  unfold Delimiters.openAt Text.startsWith
  rw [Bool.and_eq_true, decide_eq_true_eq, Option.isSome_iff_ne_none, ne_eq, ne_eq,
    Text.stripStart_eq_none_iff, Classical.not_not]
  exact and_iff_right named

/-- Up to its closing delimiter an interpolation is read as it stands. -/
theorem readInterpolation_eq {inner rest : List Char}
    (parts : c.rest = d.delimiters.opening.toList ++ s)
    (closes : First d.delimiters.closing.toList s inner rest) :
    c.readInterpolation d.delimiters =
      (.interpolation (String.ofList
          (d.delimiters.opening.toList ++ inner ++ d.delimiters.closing.toList)),
        c.skip (d.delimiters.opening.toList ++ inner ++ d.delimiters.closing.toList).length) := by
  have found := Text.splitOnce_eq_some_iff.mpr closes
  unfold Cursor.readInterpolation
  dsimp only
  rw [parts, List.drop_left]
  split
  · next x y same =>
    rw [found] at same
    cases same
    rw [closes.parts]
    simp only [← List.append_assoc, ← List.length_append, List.take_left]
  · next none =>
    rw [found] at none
    cases none

/-- Before a character at which text stops it stops where it does on its own. -/
theorem takeWhile_append_stop {p : Char → Bool} {ch : Char} (stops : p ch = false)
    (s u : List Char) : (s ++ ch :: u).takeWhile p = s.takeWhile p := by
  induction s with
  | nil => rw [List.nil_append, List.takeWhile_cons_of_neg (by simp [stops]), List.takeWhile_nil]
  | cons c s ih => rw [List.cons_append, List.takeWhile_cons, List.takeWhile_cons, ih]

/-- No interpolation begins where text does not stop. -/
theorem not_beginsIn_takeWhile (named : d.delimiters.opening ≠ "") (s b : List Char) :
    ¬ BeginsIn d.delimiters.opening.toList (s.takeWhile (!d.delimiters.stopsText ·)) b := by
  rintro ⟨x, y, parts, more, t, begins⟩
  cases opening : d.delimiters.opening.toList with
  | nil => exact named (String.toList_eq_nil_iff.mp opening)
  | cons o os =>
    cases y with
    | nil => exact more rfl
    | cons c y =>
      rw [opening] at begins
      obtain ⟨rfl, -⟩ := List.cons.inj begins
      have listed : o ∈ s.takeWhile (!d.delimiters.stopsText ·) := by
        rw [parts]
        exact List.mem_append_right x List.mem_cons_self
      have goesOn := List.all_eq_true.mp List.all_takeWhile o listed
      simp [Delimiters.stopsText, opening] at goesOn

theorem readText_eq {a t : List Char} (rest : c.rest = a ++ t) :
    c.readText a.length = (.text (String.ofList a), c.skip a.length) := by
  rw [Cursor.readText, rest, List.take_left]

/-- Where no interpolation stands, none begins up to where text stops after the first character. -/
theorem not_beginsIn_cons_takeWhile (named : d.delimiters.opening ≠ "") {ch : Char}
    (absent : ¬ d.delimiters.opening.toList <+: ch :: s) :
    ¬ BeginsIn d.delimiters.opening.toList (ch :: s.takeWhile (!d.delimiters.stopsText ·))
      (s.dropWhile (!d.delimiters.stopsText ·)) := by
  rintro ⟨x, y, parts, some, begins⟩
  cases x with
  | nil =>
    rw [List.nil_append] at parts
    rw [← parts, List.cons_append, List.takeWhile_append_dropWhile] at begins
    exact absent begins
  | cons c x =>
    exact not_beginsIn_takeWhile named s _ ⟨x, y, (List.cons.inj parts).2, some, begins⟩

/-- What is read of a text before a bracket: an interpolation that stands here, or a stretch in
which none begins. -/
def ReadsText (d : Dialect) (h : Head) (s u : List Char) : Prop :=
  (d.delimiters.opening.toList <+: s ∧
    h.cursor.read d h.mode = ((h.cursor.readInterpolation d.delimiters).1, h.mode,
      (h.cursor.readInterpolation d.delimiters).2)) ∨
  ∃ a b mode, s = a ++ b ∧ a ≠ [] ∧ ¬ BeginsIn d.delimiters.opening.toList a b ∧
    HoldsUpTo ('<' :: u) mode ∧
    h.cursor.read d h.mode = (.text (String.ofList a), mode, h.cursor.skip a.length)

/-- A text without interpolations may be read as a whole. -/
theorem readsText_whole (rest : h.rest = s ++ '<' :: u) (more : s ≠ [])
    (absent : ¬ d.delimiters.opening.toList <:+: s)
    (read : h.cursor.read d h.mode =
      ((h.cursor.readText s.length).1, .data, (h.cursor.readText s.length).2)) :
    ReadsText d h s u := by
  refine .inr ⟨s, [], .data, (List.append_nil s).symm, more, ?_, trivial, ?_⟩
  · rintro ⟨x, y, rfl, -, begins⟩
    rw [List.append_nil] at begins
    exact absent (begins.isInfix.trans List.infix_append_right)
  · rw [read, readText_eq (c := h.cursor) rest]

section

variable (named : d.delimiters.opening ≠ "") (noBracket : '<' ∉ d.delimiters.opening.toList)
  (rest : h.rest = s ++ '<' :: u) (more : s ≠ []) (plain : '<' ∉ s)

include named noBracket rest more plain

theorem readsText_data (mode : h.mode = .data) : ReadsText d h s u := by
  have rest : h.cursor.rest = s ++ '<' :: u := rest
  have stops : (fun ch => !d.delimiters.stopsText ch) '<' = false := rfl
  have read : h.cursor.read d h.mode = h.cursor.readData d := by rw [mode]; rfl
  unfold ReadsText
  rw [read]
  unfold Cursor.readData
  dsimp only
  by_cases first : 0 < (h.cursor.rest.takeWhile (!d.delimiters.stopsText ·)).length
  · rw [if_pos first]
    rw [rest, takeWhile_append_stop stops] at first ⊢
    refine .inr ⟨_, _, .data, List.takeWhile_append_dropWhile.symm, List.length_pos_iff.mp first,
      not_beginsIn_takeWhile named _ _, trivial, ?_⟩
    rw [readText_eq (by rw [rest, ← List.append_assoc, List.takeWhile_append_dropWhile])]
  · rw [if_neg first]
    by_cases here : d.delimiters.openAt h.cursor.rest = true
    · rw [if_pos here]
      rw [rest, openAt_iff named] at here
      exact .inl ⟨Text.prefix_of_prefix_append noBracket here, by rw [mode]⟩
    · rw [if_neg here]
      rw [rest, openAt_iff named] at here
      obtain ⟨ch, s, rfl⟩ := List.exists_cons_of_ne_nil more
      have noTag : ¬ h.cursor.rest.head? = some '<' := by
        rw [rest]
        exact fun same => plain (List.mem_cons.mpr (.inl (Option.some.inj same).symm))
      rw [if_neg noTag]
      have tail : h.cursor.rest.drop 1 = s ++ '<' :: u := by rw [rest]; rfl
      rw [tail, takeWhile_append_stop stops, Nat.add_comm]
      refine .inr ⟨ch :: s.takeWhile (!d.delimiters.stopsText ·),
        s.dropWhile (!d.delimiters.stopsText ·), .data, ?_, List.cons_ne_nil _ _,
        not_beginsIn_cons_takeWhile named fun begins =>
          here (begins.trans (List.prefix_append _ _)), trivial, ?_⟩
      · rw [List.cons_append, List.takeWhile_append_dropWhile]
      · rw [← List.length_cons (a := ch), readText_eq]
        rw [rest, List.cons_append, List.cons_append, ← List.append_assoc,
          List.takeWhile_append_dropWhile]

theorem readsText_replaceable {element : String} (mode : h.mode = .replaceable element)
    (stands : EndTagStands element ('<' :: u)) : ReadsText d h s u := by
  have read : h.cursor.read d h.mode = h.cursor.readReplaceable d element := by rw [mode]; rfl
  have whole : Markup.beforeEndTag element h.cursor.rest = s := by
    refine (congrArg _ rest).trans (Markup.beforeEndTag_eq (.inr stands) ?_)
    rintro x y rfl some ⟨n, t, parts, -⟩
    obtain ⟨ch, y, rfl⟩ := List.exists_cons_of_ne_nil some
    obtain ⟨rfl, -⟩ := List.cons.inj parts
    exact plain (List.mem_append_right x List.mem_cons_self)
  unfold Cursor.readReplaceable at read
  dsimp only at read
  by_cases here : d.delimiters.openAt h.cursor.rest = true
  · rw [if_pos here] at read
    have begins := (openAt_iff named).mp here
    rw [show h.cursor.rest = s ++ '<' :: u from rest] at begins
    exact .inl ⟨Text.prefix_of_prefix_append noBracket begins, by rw [read, mode]⟩
  · rw [if_neg here, whole, if_neg (mt List.length_eq_zero_iff.mp more), if_neg named] at read
    split at read
    · next before after found =>
      have first := Text.splitOnce_eq_some_iff.mp found
      rw [show h.cursor.rest = s ++ '<' :: u from rest] at first
      by_cases inside : before.length < s.length
      · rw [if_pos inside] at read
        obtain ⟨b, rfl⟩ := first.isPrefix inside
        refine .inr ⟨before, b, .replaceable element, rfl, ?_, first.not_beginsIn, stands, ?_⟩
        · rintro rfl
          refine here ((openAt_iff named).mpr ?_)
          rw [show h.cursor.rest = _ from rest, first.parts]
          exact List.prefix_append _ _
        · rw [read, readText_eq (c := h.cursor) (rest.trans (List.append_assoc ..))]
      · rw [if_neg inside] at read
        have some := mt String.toList_eq_nil_iff.mp named
        exact readsText_whole rest more (fun occurs => inside (first.length_lt some occurs)) read
    · next none =>
      refine readsText_whole rest more (fun occurs => ?_) read
      rw [show h.cursor.rest = s ++ '<' :: u from rest] at none
      exact Text.splitOnce_eq_none_iff.mp none (occurs.trans List.infix_append_left)

theorem readsText (holds : HoldsUpTo ('<' :: u) h.mode) : ReadsText d h s u := by
  cases mode : h.mode with
  | data => exact readsText_data named noBracket rest more plain mode
  | replaceable element =>
    rw [mode] at holds
    exact readsText_replaceable named noBracket rest more plain mode holds
  | raw element =>
    rw [mode] at holds
    exact absurd holds id

end

/-- An interpolation that stands at the beginning of a text is the first segment of the text. -/
theorem decomposes_opening {d : Delimiters} {t : List Char} {es : List Expr}
    (h : Decomposes d (d.opening.toList ++ t) es) :
    ∃ inner rest expr filters es', First d.closing.toList t inner rest ∧
      Filter.split inner = expr :: filters ∧ Decomposes d rest es' ∧
      es = .interpolation (String.ofList expr) (filters.map String.ofList) :: es' := by
  generalize whole : d.opening.toList ++ t = s at h
  cases h with
  | literal plain => exact absurd ⟨[], t, whole⟩ plain
  | @interpolation _ before after inner rest expr filters es' opens closes parts tail =>
    obtain rfl : before = [] := by
      have first := opens.first [] t whole.symm
      exact List.length_eq_zero_iff.mp (Nat.le_zero.mp first)
    obtain rfl : t = after := List.append_cancel_left (whole.trans opens.parts)
    exact ⟨inner, rest, expr, filters, es', closes, parts, tail, rfl⟩

theorem next_of_read {token : Token} {mode : Mode} {w t : List Char} (rest : h.rest = w ++ t)
    (read : h.cursor.read d h.mode = (token, mode, h.cursor.skip w.length)) :
    (h.next d).rest = t ∧ (h.next d).mode = mode ∧ (h.lexeme d).token = token := by
  refine ⟨(congrArg (·.2.2.rest) read).trans ?_, congrArg (·.2.1) read, congrArg (·.1) read⟩
  show h.rest.drop _ = _
  rw [rest, List.drop_left]

/-- From here the pieces are read, up to a bracket. -/
def ReadAs (d : Dialect) (h : Head) (u : List Char) (ps : List Piece) : Prop :=
  ∃ ls h', Reads d h ls h' ∧ h'.rest = '<' :: u ∧ HoldsUpTo ('<' :: u) h'.mode ∧
    ls.map (·.token) = ps.map Piece.token

theorem ReadAs.cons {p : Piece} {ps : List Piece} (left : h.rest ≠ [])
    (token : (h.lexeme d).token = p.token) (after : ReadAs d (h.next d) u ps) :
    ReadAs d h u (p :: ps) := by
  obtain ⟨ls, h', reads, last, holds, tokens⟩ := after
  refine ⟨h.lexeme d :: ls, h', .next left reads, last, holds, ?_⟩
  rw [List.map_cons, List.map_cons, token, tokens]

/-- A text is read to the bracket after it, as pieces that make up what it is made of. -/
theorem exists_readAs (named : d.delimiters.opening ≠ "")
    (noBracket : '<' ∉ d.delimiters.opening.toList) (rest : h.rest = s ++ '<' :: u)
    (plain : '<' ∉ s) (holds : HoldsUpTo ('<' :: u) h.mode) {es : List Expr}
    (decomposed : Decomposes d.delimiters s es) :
    ∃ ps, ReadAs d h u ps ∧ segments d.delimiters ps = es ∧ (s ≠ [] → ps ≠ []) := by
  generalize short : s.length = n
  induction n using Nat.strongRecOn generalizing h s es with
  | ind n ih =>
  by_cases more : s = []
  · subst more
    refine ⟨[], ⟨[], h, .here h, rest, holds, rfl⟩, ?_, absurd rfl⟩
    cases decomposed with
    | literal plain => rfl
    | interpolation opens closes parts tail =>
      have none := (List.append_eq_nil_iff.mp (List.append_eq_nil_iff.mp opens.parts.symm).1).2
      exact absurd (String.toList_eq_nil_iff.mp none) named
  have left : h.rest ≠ [] := by
    rw [rest]
    exact List.append_ne_nil_of_left_ne_nil more _
  rcases readsText named noBracket rest more plain holds with ⟨⟨t, rfl⟩, read⟩ | stretch
  · obtain ⟨inner, r, expr, filters, es', closes, parts, tail, rfl⟩ := decomposes_opening decomposed
    rw [readInterpolation_eq (c := h.cursor) (rest.trans (List.append_assoc ..))
      (closes.append ('<' :: u))] at read
    have parted : h.rest = d.delimiters.opening.toList ++ inner ++ d.delimiters.closing.toList ++
        (r ++ '<' :: u) := by
      rw [rest, closes.parts]
      simp
    obtain ⟨next, mode, token⟩ := next_of_read parted read
    have shorter : r.length < n := by
      have some := List.length_pos_iff.mpr fun none => named (String.toList_eq_nil_iff.mp none)
      rw [closes.parts] at short
      simp only [List.length_append] at short
      omega
    obtain ⟨ps, after, same, -⟩ :=
      ih r.length shorter next (fun bracket => plain (by rw [closes.parts]; simp [bracket]))
        (mode ▸ holds) tail rfl
    refine ⟨_, .cons (p := .interpolation _) left token after, ?_, fun _ => List.cons_ne_nil _ _⟩
    rw [segments, same, String.toList_ofList, ofInterpolation_eq parts]
  · obtain ⟨a, b, mode, rfl, some, absent, holds', read⟩ := stretch
    obtain ⟨es', decomposed', joined⟩ := decomposed.tail absent
    obtain ⟨next, mode', token⟩ := next_of_read (rest.trans (List.append_assoc ..)) read
    have shorter : b.length < n := by
      have length := List.length_pos_iff.mpr some
      rw [List.length_append] at short
      omega
    obtain ⟨ps, after, same, -⟩ :=
      ih b.length shorter next (fun bracket => plain (List.mem_append_right a bracket))
        (mode' ▸ holds') decomposed' rfl
    exact ⟨_, .cons (p := .literal _) left token after, joined ps same,
      fun _ => List.cons_ne_nil _ _⟩

end ComponentLoader.Template
