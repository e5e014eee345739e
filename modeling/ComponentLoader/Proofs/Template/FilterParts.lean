import ComponentLoader.Proofs.Template.FilterReading
import ComponentLoader.Proofs.Text.Edges

/-! The parts of an interpolation do not fall apart further, alone or put together again. Every cut
is made outside of quotes and brackets, and trimming a part that ends there leaves it ending there:
white space changes neither, and no backslash hides what stands outside of quotes. -/
namespace ComponentLoader.Template.Filter

open Text (AllSpace trim)

variable {quote quote' : Option Char} {depth depth' : Nat} {c q : Char}
  {s t space part : List Char} {parts : List (List Char)}

/-- The text is read from the first place without a cut, and what follows it is read from the
second. -/
inductive Passes : Option Char → Nat → List Char → Option Char → Nat → Prop
  | nil (quote : Option Char) (depth : Nat) : Passes quote depth [] quote depth
  | alone {quote quote' : Option Char} {depth depth' : Nat} {c : Char} {s : List Char}
      (own : Alone quote depth c)
      (rest : Passes (after quote depth c).1 (after quote depth c).2 s quote' depth') :
      Passes quote depth (c :: s) quote' depth'
  | hidden {q c : Char} {quote' : Option Char} {depth depth' : Nat} {s : List Char}
      (rest : Passes (some q) depth s quote' depth') :
      Passes (some q) depth ('\\' :: c :: s) quote' depth'
  | pipes {quote' : Option Char} {depth' : Nat} {s : List Char}
      (rest : Passes none 0 s quote' depth') : Passes none 0 ('|' :: '|' :: s) quote' depth'

/-- What follows goes on with the part that is being read. -/
theorem Passes.cut_append (h : Passes quote depth s quote' depth')
    (rest : cut quote' depth' t = part :: parts) :
    cut quote depth (s ++ t) = (s ++ part) :: parts := by
  induction h with
  | nil => exact rest
  | alone own _ ih => rw [List.cons_append, cut_alone own, ih rest, extend_cons, List.cons_append]
  | hidden _ ih =>
    rw [List.cons_append, List.cons_append, cut_hidden, ih rest, extend_cons, extend_cons]
    rfl
  | pipes _ ih =>
    rw [List.cons_append, List.cons_append, cut_pipes, ih rest, extend_cons, extend_cons]
    rfl

theorem Passes.cut_eq (h : Passes quote depth s quote' depth') : cut quote depth s = [s] := by
  have whole := h.cut_append (cut_nil quote' depth')
  rwa [List.append_nil] at whole

theorem length_extend (some : parts ≠ []) : (extend c parts).length = parts.length := by
  cases parts with
  | nil => exact absurd rfl some
  | cons part parts => rfl

theorem extend_eq_cons (some : parts ≠ []) {rest : List (List Char)}
    (h : extend c parts = part :: rest) : ∃ t, part = c :: t ∧ parts = t :: rest := by
  cases parts with
  | nil => exact absurd rfl some
  | cons t parts =>
    obtain ⟨rfl, rfl⟩ := List.cons.inj h
    exact ⟨t, rfl, rfl⟩

/-- A part is all that is left, or it ends at a pipe outside of quotes and brackets. -/
theorem part_of_cut (h : cut quote depth s = part :: parts) :
    part = s ∧ parts = [] ∨
      ∃ rest, s = part ++ '|' :: rest ∧ Passes quote depth part none 0 ∧
        cut none 0 rest = parts := by
  induction quote, depth, s using reading generalizing part with
  | nil quote depth =>
    rw [cut_nil] at h
    obtain ⟨rfl, rfl⟩ := List.cons.inj h
    exact .inl ⟨rfl, rfl⟩
  | alone quote depth c s own ih =>
    rw [cut_alone own] at h
    obtain ⟨t, rfl, rest⟩ := extend_eq_cons (cut_ne_nil _ _ s) h
    rcases ih rest with ⟨rfl, none⟩ | ⟨further, rfl, passes, parted⟩
    · exact .inl ⟨rfl, none⟩
    · exact .inr ⟨further, rfl, .alone own passes, parted⟩
  | lone q depth =>
    rw [cut_lone] at h
    obtain ⟨rfl, rfl⟩ := List.cons.inj h
    exact .inl ⟨rfl, rfl⟩
  | hidden q depth c s ih =>
    rw [cut_hidden] at h
    obtain ⟨u, rfl, next⟩ := extend_eq_cons (extend_ne_nil _ _) h
    obtain ⟨t, rfl, rest⟩ := extend_eq_cons (cut_ne_nil _ _ s) next
    rcases ih rest with ⟨rfl, none⟩ | ⟨further, rfl, passes, parted⟩
    · exact .inl ⟨rfl, none⟩
    · exact .inr ⟨further, rfl, .hidden passes, parted⟩
  | pipes s ih =>
    rw [cut_pipes] at h
    obtain ⟨u, rfl, next⟩ := extend_eq_cons (extend_ne_nil _ _) h
    obtain ⟨t, rfl, rest⟩ := extend_eq_cons (cut_ne_nil _ _ s) next
    rcases ih rest with ⟨rfl, none⟩ | ⟨further, rfl, passes, parted⟩
    · exact .inl ⟨rfl, none⟩
    · exact .inr ⟨further, rfl, .pipes passes, parted⟩
  | pipe s single =>
    rw [cut_pipe single] at h
    obtain ⟨rfl, rfl⟩ := List.cons.inj h
    exact .inr ⟨s, rfl, .nil none 0, rfl⟩

/-! White space is read alone, and what follows it stands in the same quotes and brackets. -/

theorem isSpace_special (space : Text.isSpace c = true) :
    ¬ IsQuote c ∧ c ≠ '\\' ∧ c ≠ '|' ∧ ¬ (c = '(' ∨ c = '[' ∨ c = '\x7b') ∧
      ¬ (c = ')' ∨ c = ']' ∨ c = '\x7d') := by
  refine ⟨?_, ?_, ?_, ?_, ?_⟩
  · rintro (rfl | rfl | rfl) <;> cases space
  · rintro rfl
    cases space
  · rintro rfl
    cases space
  · rintro (rfl | rfl | rfl) <;> cases space
  · rintro (rfl | rfl | rfl) <;> cases space

theorem alone_of_isSpace (space : Text.isSpace c = true) (quote : Option Char) (depth : Nat) :
    Alone quote depth c := by
  obtain ⟨-, backslash, pipe, -, -⟩ := isSpace_special space
  exact ⟨fun _ => backslash, fun _ _ => pipe⟩

theorem after_of_isSpace (h : Quoted quote) (space : Text.isSpace c = true) (depth : Nat) :
    after quote depth c = (quote, depth) := by
  obtain ⟨noQuote, -, -, opens, closes⟩ := isSpace_special space
  cases quote with
  | some q =>
    have other : c ≠ q := by
      rintro rfl
      exact noQuote (h c rfl)
    rw [after, if_neg other]
  | none =>
    rw [after]
    exact (if_neg noQuote).trans ((if_neg opens).trans (if_neg closes))

theorem quoted_none : Quoted none := nofun

theorem Passes.of_allSpace (h : Quoted quote) (depth : Nat) (blank : AllSpace space) :
    Passes quote depth space quote depth := by
  induction space with
  | nil => exact .nil quote depth
  | cons c space ih =>
    obtain ⟨first, rest⟩ := List.forall_mem_cons.mp blank
    refine .alone (alone_of_isSpace first quote depth) ?_
    rw [after_of_isSpace h first]
    exact ih rest

theorem Passes.ends_of_allSpace (h : Passes quote depth space quote' depth')
    (quoted : Quoted quote) (blank : AllSpace space) : quote' = quote ∧ depth' = depth := by
  induction h with
  | nil => exact ⟨rfl, rfl⟩
  | alone own rest ih =>
    obtain ⟨first, blank⟩ := List.forall_mem_cons.mp blank
    rw [after_of_isSpace quoted first] at ih
    exact ih quoted blank
  | hidden => exact absurd rfl (isSpace_special (blank _ List.mem_cons_self)).2.1
  | pipes => exact absurd rfl (isSpace_special (blank _ List.mem_cons_self)).2.2.1

theorem Passes.nil_of_allSpace (h : Passes quote depth space none depth') (quoted : Quoted quote)
    (blank : AllSpace space) : Passes quote depth [] none depth' := by
  obtain ⟨rfl, rfl⟩ := h.ends_of_allSpace quoted blank
  exact .nil _ _

/-- A text that ends outside of quotes ends there without the white space at its end. -/
theorem Passes.of_append_allSpace (h : Passes quote depth (t ++ space) none depth')
    (quoted : Quoted quote) (blank : AllSpace space) : Passes quote depth t none depth' := by
  generalize whole : t ++ space = s at h
  generalize ends : (none : Option Char) = quote' at h
  induction h generalizing t with
  | nil quote depth =>
    obtain ⟨rfl, rfl⟩ := List.append_eq_nil_iff.mp whole
    exact ends ▸ .nil quote depth
  | alone own rest ih =>
    subst ends
    cases t with
    | nil =>
      rw [List.nil_append] at whole
      subst whole
      exact (Passes.alone own rest).nil_of_allSpace quoted blank
    | cons c t =>
      obtain ⟨rfl, left⟩ := List.cons.inj whole
      exact .alone own (ih (quoted.after _ _) left rfl)
  | hidden rest ih =>
    subst ends
    match t with
    | [] =>
      rw [List.nil_append] at whole
      subst whole
      exact (Passes.hidden rest).nil_of_allSpace quoted blank
    | [_] =>
      obtain ⟨rfl, rfl⟩ := List.cons.inj whole
      have open' := rest.ends_of_allSpace quoted fun c hc => blank c (List.mem_cons_of_mem _ hc)
      cases open'.1
    | _ :: _ :: t =>
      obtain ⟨rfl, next⟩ := List.cons.inj whole
      obtain ⟨rfl, left⟩ := List.cons.inj next
      exact .hidden (ih quoted left rfl)
  | pipes rest ih =>
    subst ends
    match t with
    | [] =>
      rw [List.nil_append] at whole
      subst whole
      exact (Passes.pipes rest).nil_of_allSpace quoted blank
    | [_] =>
      obtain ⟨rfl, rfl⟩ := List.cons.inj whole
      exact absurd rfl (isSpace_special (blank _ List.mem_cons_self)).2.2.1
    | _ :: _ :: t =>
      obtain ⟨rfl, next⟩ := List.cons.inj whole
      obtain ⟨rfl, left⟩ := List.cons.inj next
      exact .pipes (ih quoted left rfl)

theorem Passes.tail_of_isSpace (h : Passes quote depth (c :: s) quote' depth')
    (quoted : Quoted quote) (blank : Text.isSpace c = true) :
    Passes quote depth s quote' depth' := by
  cases h with
  | alone own rest => rwa [after_of_isSpace quoted blank] at rest
  | hidden => exact absurd rfl (isSpace_special blank).2.1
  | pipes => exact absurd rfl (isSpace_special blank).2.2.1

theorem Passes.of_allSpace_append (h : Passes quote depth (space ++ t) quote' depth')
    (quoted : Quoted quote) (blank : AllSpace space) : Passes quote depth t quote' depth' := by
  induction space with
  | nil => exact h
  | cons c space ih =>
    obtain ⟨first, blank⟩ := List.forall_mem_cons.mp blank
    exact ih (h.tail_of_isSpace quoted first) blank

/-- What ends outside of quotes and brackets does so without the white space around it. -/
theorem Passes.trim (h : Passes none 0 s none 0) : Passes none 0 (trim s) none 0 := by
  obtain ⟨a, b, parts, before, after⟩ := Text.exists_trim s
  rw [parts] at h
  exact (h.of_append_allSpace quoted_none after).of_allSpace_append quoted_none before

/-- White space at the end of a text changes none of its cuts. -/
theorem length_cut_append (quoted : Quoted quote) (depth : Nat) (s : List Char)
    (blank : AllSpace space) :
    (cut quote depth (s ++ space)).length = (cut quote depth s).length := by
  induction quote, depth, s using reading with
  | nil quote depth =>
    rw [List.nil_append, (Passes.of_allSpace quoted depth blank).cut_eq, cut_nil]
    rfl
  | alone quote depth c s own ih =>
    rw [List.cons_append, cut_alone own, cut_alone own, length_extend (cut_ne_nil _ _ _),
      length_extend (cut_ne_nil _ _ _)]
    exact ih (quoted.after depth c)
  | lone q depth =>
    cases space with
    | nil => rfl
    | cons c space =>
      have rest := List.forall_mem_cons.mp blank
      rw [List.singleton_append, cut_hidden, cut_lone,
        (Passes.of_allSpace quoted depth rest.2).cut_eq]
      rfl
  | hidden q depth c s ih =>
    rw [List.cons_append, List.cons_append, cut_hidden, cut_hidden,
      length_extend (extend_ne_nil _ _), length_extend (extend_ne_nil _ _),
      length_extend (cut_ne_nil _ _ _), length_extend (cut_ne_nil _ _ _), ih quoted]
  | pipes s ih =>
    rw [List.cons_append, List.cons_append, cut_pipes, cut_pipes,
      length_extend (extend_ne_nil _ _), length_extend (extend_ne_nil _ _),
      length_extend (cut_ne_nil _ _ _), length_extend (cut_ne_nil _ _ _), ih quoted]
  | pipe s single ih =>
    have first : (s ++ space).head? ≠ some '|' := by
      cases s with
      | nil =>
        intro same
        exact absurd rfl (isSpace_special (blank _ (List.mem_of_mem_head? same))).2.2.1
      | cons c s => exact single
    rw [List.cons_append, cut_pipe first, cut_pipe single, List.length_cons, List.length_cons,
      ih quoted]

/-- A part that is not cut is not cut without the white space around it. -/
theorem cut_trim (h : cut none 0 s = [s]) : cut none 0 (trim s) = [trim s] := by
  obtain ⟨a, b, parts, before, after⟩ := Text.exists_trim s
  have length : (cut none 0 (trim s)).length = 1 := by
    obtain ⟨part, rest, parted⟩ := exists_cut none 0 (trim s)
    have front := (Passes.of_allSpace quoted_none 0 before).cut_append parted
    have back := length_cut_append quoted_none 0 (a ++ trim s) after
    rw [← parts, h, front] at back
    rw [parted]
    exact back.symm
  obtain ⟨part, rest, parted⟩ := exists_cut none 0 (trim s)
  rw [parted, List.length_cons, Nat.add_eq_right, List.length_eq_zero_iff] at length
  subst length
  rcases part_of_cut parted with ⟨same, -⟩ | ⟨further, -, -, nothing⟩
  · rw [parted, same]
  · exact absurd nothing (cut_ne_nil none 0 further)

theorem cut_trim_of_mem (h : part ∈ cut none 0 s) : cut none 0 (trim part) = [trim part] := by
  generalize parted : cut none 0 s = parts at h
  induction parts generalizing s with
  | nil => cases h
  | cons first parts ih =>
    rcases part_of_cut parted with ⟨rfl, rfl⟩ | ⟨rest, rfl, passes, further⟩
    · obtain rfl := List.mem_singleton.mp h
      exact cut_trim parted
    · rcases List.mem_cons.mp h with rfl | h
      · exact passes.trim.cut_eq
      · exact ih further h

/-- No part of an interpolation falls into parts. -/
theorem split_of_mem_split (h : part ∈ split s) : split part = [part] := by
  obtain ⟨whole, mem, rfl⟩ := List.mem_map.mp h
  rw [split, cut_trim_of_mem mem, List.map_singleton, Text.trim_trim]

/-- A part, a pipe between two spaces and more fall into the part and what the rest falls into. -/
theorem split_joined (passes : Passes none 0 part none 0) (u : List Char) :
    split (trim part ++ ([' ', '|', ' '] ++ u)) = trim part :: split u := by
  have blank : AllSpace [' '] := List.forall_mem_singleton.mpr rfl
  have space := alone_of_isSpace (blank ' ' List.mem_cons_self) none 0
  obtain ⟨first, others, rest⟩ := exists_cut none 0 u
  have behind : cut none 0 (' ' :: u) = (' ' :: first) :: others := by
    rw [cut_alone space]
    exact congrArg (extend ' ') rest
  have between : cut none 0 ([' ', '|', ' '] ++ u) = [' '] :: (' ' :: first) :: others := by
    show cut none 0 (' ' :: '|' :: ' ' :: u) = _
    rw [cut_alone space]
    show extend ' ' (cut none 0 ('|' :: ' ' :: u)) = _
    rw [cut_pipe (by simp), behind]
    rfl
  have edge (s : List Char) : trim (s ++ [' ']) = trim s :=
    Text.trim_append Text.allSpace_nil blank s
  have edge' (s : List Char) : trim (' ' :: s) = trim s := by
    have both := Text.trim_append blank Text.allSpace_nil s
    rwa [List.append_nil] at both
  rw [split, passes.trim.cut_append between, List.map_cons, List.map_cons, edge, edge',
    Text.trim_trim, split, rest, List.map_cons]

/-- The parts of an interpolation that are put together again fall into the same parts. -/
theorem split_intercalate_split (s : List Char) :
    split ([' ', '|', ' '].intercalate (split s)) = split s := by
  obtain ⟨part, parts, parted⟩ := exists_cut none 0 s
  induction parts generalizing s part with
  | nil =>
    have single : split s = [trim part] := by rw [split, parted, List.map_singleton]
    rw [single, List.intercalate_singleton]
    exact split_of_mem_split (single ▸ List.mem_singleton_self _)
  | cons next parts ih =>
    rcases part_of_cut parted with ⟨-, none⟩ | ⟨rest, rfl, passes, further⟩
    · cases none
    · have whole : split (part ++ '|' :: rest) = trim part :: split rest := by
        rw [split, parted, split, further, List.map_cons]
      obtain ⟨first, others, ends⟩ : ∃ first others, split rest = first :: others :=
        ⟨_, _, by rw [split, further, List.map_cons]⟩
      have joined : [' ', '|', ' '].intercalate (trim part :: split rest) =
          trim part ++ ([' ', '|', ' '] ++ [' ', '|', ' '].intercalate (split rest)) := by
        rw [ends, List.intercalate_cons_cons, List.append_assoc]
      rw [whole, joined, split_joined passes, ih rest next further]

/-- Splitting an interpolation is stable. Cutting its bytes gives the bytes of its parts, so that no
cut falls within a character, whatever characters, quotes, brackets and backslashes it holds; each
part is trimmed and does not fall into parts; and the parts put together with pipes between them
fall into the same parts. -/
theorem split_stable (s : List Char) :
    cutBytes none 0 (Text.Utf8.encode s) = (cut none 0 s).map Text.Utf8.encode ∧
      (∀ part ∈ split s, trim part = part ∧ split part = [part]) ∧
      split (" | ".toList.intercalate (split s)) = split s := by
  refine ⟨cutBytes_encode quoted_none 0 s, ?_, split_intercalate_split s⟩
  intro part mem
  obtain ⟨whole, -, rfl⟩ := List.mem_map.mp mem
  exact ⟨Text.trim_trim whole, split_of_mem_split mem⟩

end ComponentLoader.Template.Filter
