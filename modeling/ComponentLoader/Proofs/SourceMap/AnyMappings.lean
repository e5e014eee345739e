import ComponentLoader.Proofs.SourceMap.Numerals
import ComponentLoader.SourceMap.Basic
import Mathlib.Algebra.BigOperators.Group.List.Basic
import Mathlib.Algebra.Group.Prod

/-! Looking a line up in mappings that nobody need have written. The lookup fails where a segment
that it reads holds a character that is no digit, and where the lines that it reads have no segments
at all. Nothing else makes it fail: a number that the end of its segment cuts off counts for nothing
and one that leaves 64 bits is cut to them, and so is every sum. -/
namespace ComponentLoader.SourceMap

open Vlq (Digits decode_digits endedNumerals number wrap)

def segmentsOf (line : List Char) : List (List Char) :=
  (Text.splitOn ',' line).filter (!·.isEmpty)

def linesUpTo (mappings : String) (line : Nat) : List (List (List Char)) :=
  ((Text.splitOn ';' mappings.toList).take line).map segmentsOf

/-- By how many lines and columns digits move the place in the source. -/
def move (segment : List Char) : Int × Int :=
  match (endedNumerals segment).map number with
  | _ :: _ :: line :: column :: _ => (line, column)
  | _ => (0, 0)

def place (segments : List (List Char)) : Int × Int := (segments.map move).sum

theorem place_concat (segments : List (List Char)) (s : List Char) :
    place (segments ++ [s]) = place segments + move s := by
  simp [place]

/-- What has been read is the place that the segments come to, in 64 bits. -/
def Trace.After (t : Trace) (segments : List (List Char)) : Prop :=
  t.line = wrap (place segments).1 ∧ t.column = wrap (place segments).2

variable {t : Trace} {segment line : List Char} {read segments : List (List Char)}
  {lines : List (List Char)}

theorem after_nil : ({} : Trace).After [] := ⟨rfl, rfl⟩

theorem wrap_wrap (n : Int) : wrap (wrap n) = wrap n := Int.bmod_bmod

theorem wrap_wrap_add (m n : Int) : wrap (wrap m + n) = wrap (m + n) := Int.bmod_add_bmod

/-- Digits move the place, which is kept in 64 bits. -/
theorem readSegment_eq (line : wrap t.line = t.line) (column : wrap t.column = t.column)
    (digits : Digits segment) :
    readSegment t segment = some { t with
      line := wrap (t.line + (move segment).1)
      column := wrap (t.column + (move segment).2) } := by
  have stays : some t =
      some { t with line := wrap (t.line + 0), column := wrap (t.column + 0) } := by
    rw [Int.add_zero, Int.add_zero, line, column]
  rw [readSegment, decode_digits digits, Option.map_some, move]
  rcases (endedNumerals segment).map number with _ | ⟨_, _ | ⟨_, _ | ⟨_, _ | _⟩⟩⟩
  · exact stays
  · exact stays
  · exact stays
  · exact stays
  · rfl

theorem readSegment_digits (after : t.After read) (digits : Digits segment) :
    ∃ t', readSegment t segment = some t' ∧ t'.After (read ++ [segment]) ∧ t'.last = t.last := by
  obtain ⟨line, column⟩ := after
  have held : wrap t.line = t.line := by rw [line, wrap_wrap]
  have held' : wrap t.column = t.column := by rw [column, wrap_wrap]
  have read := readSegment_eq held held' digits
  refine ⟨_, read, ⟨?_, ?_⟩, rfl⟩
  · rw [line, wrap_wrap_add, place_concat, Prod.fst_add]
  · rw [column, wrap_wrap_add, place_concat, Prod.snd_add]

theorem foldlM_readSegment_digits (after : t.After read) (digits : ∀ s ∈ segments, Digits s) :
    ∃ t', segments.foldlM readSegment t = some t' ∧ t'.After (read ++ segments) ∧
      t'.last = t.last := by
  induction segments generalizing t read with
  | nil => exact ⟨t, rfl, by rwa [List.append_nil], rfl⟩
  | cons s segments ih =>
    obtain ⟨first, later⟩ := List.forall_mem_cons.mp digits
    obtain ⟨t₁, here, after₁, last₁⟩ := readSegment_digits after first
    obtain ⟨t₂, there, after₂, last₂⟩ := ih after₁ later
    refine ⟨t₂, ?_, ?_, last₂.trans last₁⟩
    · rw [List.foldlM_cons, here]
      exact there
    · rwa [← List.append_cons] at after₂

theorem readLine_nil (blank : segmentsOf line = []) (n : Nat) : readLine t (line, n) = some t := by
  unfold segmentsOf at blank
  rw [readLine, blank]

theorem readLine_eq_bind {first : List Char} {rest : List (List Char)}
    (parts : segmentsOf line = first :: rest) (n : Nat) :
    readLine t (line, n) = (readSegment t first).bind fun t' =>
      rest.foldlM readSegment { t' with last := some (t'.line, t'.column, n) } := by
  unfold segmentsOf at parts
  rw [readLine, parts]
  rfl

theorem readLine_cons {first : List Char} {rest : List (List Char)}
    (parts : segmentsOf line = first :: rest) (n : Nat) (after : t.After read)
    (digits : ∀ s ∈ first :: rest, Digits s) :
    ∃ t', readLine t (line, n) = some t' ∧ t'.After (read ++ first :: rest) ∧
      t'.last = some (wrap (place (read ++ [first])).1, wrap (place (read ++ [first])).2, n) := by
  obtain ⟨head, tail⟩ := List.forall_mem_cons.mp digits
  obtain ⟨t₁, here, after₁, -⟩ := readSegment_digits after head
  obtain ⟨t₂, there, after₂, last₂⟩ := foldlM_readSegment_digits
    (t := { t₁ with last := some (t₁.line, t₁.column, n) }) after₁ tail
  refine ⟨t₂, ?_, ?_, ?_⟩
  · rw [readLine_eq_bind parts, here]
    exact there
  · rwa [← List.append_cons] at after₂
  · rw [last₂, after₁.1, after₁.2]

/-- Reading lines comes to the place of all their segments. -/
theorem foldlM_readLine_digits (after : t.After read)
    (digits : ∀ line ∈ lines, ∀ s ∈ segmentsOf line, Digits s) (n : Nat) :
    ∃ t', (lines.zipIdx n).foldlM readLine t = some t' ∧
      t'.After (read ++ (lines.map segmentsOf).flatten) := by
  induction lines generalizing t read n with
  | nil => exact ⟨t, rfl, by rwa [List.map_nil, List.flatten_nil, List.append_nil]⟩
  | cons line lines ih =>
    obtain ⟨first, later⟩ := List.forall_mem_cons.mp digits
    obtain ⟨t₁, here, after₁⟩ : ∃ t₁, readLine t (line, n) = some t₁ ∧
        t₁.After (read ++ segmentsOf line) := by
      cases parts : segmentsOf line with
      | nil => exact ⟨t, readLine_nil parts n, by rwa [List.append_nil]⟩
      | cons s rest =>
        obtain ⟨t₁, here, after₁, -⟩ := readLine_cons parts n after (parts ▸ first)
        exact ⟨t₁, here, after₁⟩
    obtain ⟨t₂, there, after₂⟩ := ih after₁ later (n + 1)
    refine ⟨t₂, ?_, ?_⟩
    · rw [List.zipIdx_cons, List.foldlM_cons, here]
      exact there
    · rwa [List.append_assoc] at after₂

theorem foldlM_readLine_blank (blank : ∀ line ∈ lines, segmentsOf line = []) (n : Nat) :
    (lines.zipIdx n).foldlM readLine t = some t := by
  induction lines generalizing n with
  | nil => rfl
  | cons line lines ih =>
    obtain ⟨first, later⟩ := List.forall_mem_cons.mp blank
    rw [List.zipIdx_cons, List.foldlM_cons, readLine_nil first]
    exact ih later (n + 1)

theorem unsigned_wrap (n : Int) : unsigned (wrap n) = unsigned n :=
  congrArg Int.toNat Int.bmod_emod

theorem unsigned_wrap_add (m n : Int) : unsigned (wrap m + n) = unsigned (m + n) := by
  rw [← unsigned_wrap (wrap m + n), wrap_wrap_add, unsigned_wrap]

/-- What is looked up is the place of the first segment of the last line with segments. -/
theorem sourcePosition?_place {mappings : String} {k : Nat}
    {before blank : List (List (List Char))} {first : List Char} {rest : List (List Char)}
    (parts : linesUpTo mappings k = before ++ (first :: rest) :: blank)
    (empty : ∀ line ∈ blank, line = [])
    (digits : ∀ line ∈ linesUpTo mappings k, ∀ s ∈ line, Digits s) :
    sourcePosition? mappings k =
      some (unsigned ((place (before.flatten ++ [first])).1 + (k - 1 - before.length : Nat) + 1),
        unsigned (place (before.flatten ++ [first])).2) := by
  obtain ⟨head, tail, whole, rfl, rear⟩ := List.map_eq_append_iff.mp parts
  obtain ⟨line, tail, rfl, own, rfl⟩ := List.map_eq_cons_iff.mp rear
  rw [parts] at digits
  have front : ∀ l ∈ head, ∀ s ∈ segmentsOf l, Digits s :=
    fun l mem => digits _ (List.mem_append_left _ (List.mem_map_of_mem mem))
  obtain ⟨t₁, read₁, after₁⟩ := foldlM_readLine_digits after_nil front 0
  obtain ⟨t₂, read₂, -, last₂⟩ := readLine_cons own head.length after₁
    (digits _ (List.mem_append_right _ List.mem_cons_self))
  have read₃ : (tail.zipIdx (head.length + 1)).foldlM readLine t₂ = some t₂ :=
    foldlM_readLine_blank (fun l mem => empty _ (List.mem_map_of_mem mem)) _
  rw [sourcePosition?, whole, List.zipIdx_append, List.foldlM_append, read₁]
  simp only [Option.bind_eq_bind, Option.bind_some, List.zipIdx_cons, List.foldlM_cons,
    Nat.zero_add, read₂, read₃, last₂, List.nil_append]
  rw [Int.add_assoc, unsigned_wrap_add, unsigned_wrap, ← Int.add_assoc, List.length_map]
  rfl

/-- A run fails exactly if it comes to something at which a step fails. -/
theorem foldlM_eq_none_iff {σ α : Type} {step : σ → α → Option σ} {Fails : α → Prop}
    (fails : ∀ s a, step s a = none ↔ Fails a) (l : List α) (s : σ) :
    l.foldlM step s = none ↔ ∃ a ∈ l, Fails a := by
  induction l generalizing s with
  | nil => simp
  | cons a l ih =>
    rw [List.foldlM_cons, List.exists_mem_cons_iff, ← fails s a]
    cases here : step s a with
    | none => exact iff_of_true rfl (.inl rfl)
    | some s' =>
      rw [Option.bind_eq_bind, Option.bind_some, ih]
      simp

theorem readSegment_eq_none_iff (t : Trace) (segment : List Char) :
    readSegment t segment = none ↔ ¬ Digits segment := by
  rw [readSegment, Option.map_eq_none_iff, Vlq.decode, Vlq.decodeFrom_eq_none_iff]

theorem readLine_eq_none_iff (t : Trace) (line : List Char × Nat) :
    readLine t line = none ↔ ∃ s ∈ segmentsOf line.1, ¬ Digits s := by
  obtain ⟨line, n⟩ := line
  cases parts : segmentsOf line with
  | nil => simp [readLine_nil parts]
  | cons first rest =>
    rw [readLine_eq_bind parts, List.exists_mem_cons_iff, ← readSegment_eq_none_iff t]
    cases readSegment t first with
    | none => exact iff_of_true rfl (.inl rfl)
    | some t' =>
      rw [Option.bind_some, foldlM_eq_none_iff readSegment_eq_none_iff]
      simp

/-- Reading lines fails exactly if one of them holds a segment that cannot be read. -/
theorem foldlM_readLine_eq_none_iff (t : Trace) (lines : List (List Char)) (n : Nat) :
    (lines.zipIdx n).foldlM readLine t = none ↔
      ∃ line ∈ lines.map segmentsOf, ∃ s ∈ line, ¬ Digits s := by
  have numbered : (lines.zipIdx n).map Prod.fst = lines := List.zipIdx_map_fst n lines
  rw [foldlM_eq_none_iff readLine_eq_none_iff]
  constructor
  · rintro ⟨line, mem, foreign⟩
    have there : line.1 ∈ lines := numbered ▸ List.mem_map_of_mem mem
    exact ⟨_, List.mem_map_of_mem there, foreign⟩
  · rintro ⟨_, there, foreign⟩
    obtain ⟨line, mem, rfl⟩ := List.mem_map.mp there
    rw [← numbered] at mem
    obtain ⟨pair, listed, rfl⟩ := List.mem_map.mp mem
    exact ⟨pair, listed, foreign⟩

/-- Lines are all without segments, or one of them is the last with some. -/
theorem blank_or_exists_last (lines : List (List (List Char))) :
    (∀ line ∈ lines, line = []) ∨ ∃ before first rest blank,
      lines = before ++ (first :: rest) :: blank ∧ ∀ line ∈ blank, line = [] := by
  induction lines with
  | nil => exact .inl (List.forall_mem_nil _)
  | cons line lines ih =>
    rcases ih with blank | ⟨before, first, rest, blank, rfl, empty⟩
    · cases line with
      | nil => exact .inl (List.forall_mem_cons.mpr ⟨rfl, blank⟩)
      | cons first rest => exact .inr ⟨[], first, rest, lines, rfl, blank⟩
    · exact .inr ⟨line :: before, first, rest, blank, rfl, empty⟩

theorem sourcePosition?_blank {mappings : String} {k : Nat}
    (blank : ∀ line ∈ linesUpTo mappings k, line = []) : sourcePosition? mappings k = none := by
  have read := foldlM_readLine_blank (t := {}) (n := 0)
    fun line mem => blank _ (List.mem_map_of_mem mem)
  rw [sourcePosition?, read]
  rfl

/-- The lookup fails exactly if what it reads has no segments or a character that is no digit. -/
theorem sourcePosition?_eq_none_iff (mappings : String) (k : Nat) :
    sourcePosition? mappings k = none ↔
      (∀ line ∈ linesUpTo mappings k, line = []) ∨
        ∃ line ∈ linesUpTo mappings k, ∃ s ∈ line, ¬ Digits s := by
  by_cases foreign : ∃ line ∈ linesUpTo mappings k, ∃ s ∈ line, ¬ Digits s
  · refine iff_of_true ?_ (.inr foreign)
    rw [sourcePosition?, (foldlM_readLine_eq_none_iff _ _ _).mpr foreign]
    rfl
  rw [or_iff_left foreign]
  refine ⟨fun none => ?_, sourcePosition?_blank⟩
  rcases blank_or_exists_last (linesUpTo mappings k) with blank | ⟨_, _, _, _, parts, empty⟩
  · exact blank
  · rw [sourcePosition?_place parts empty (by simpa using foreign)] at none
    cases none

/-- Looking a line up in any mappings. It fails exactly if the lines up to that one have no segments
or one that holds a character that is no digit. Where there are digits only it gives the place that
the first segment of the last line with segments comes to, as many lines further down as that line
is before the one that is asked for, in 64 bits. A segment moves the place by what its numerals that
end are read as. Reading it stays within 64 bits exactly if none of its numerals, the one that does
not end included, has more than thirteen digits or takes the sign bit, and then they are read as the
numbers that they stand for. -/
theorem sourcePosition?_of_any_mappings (mappings : String) (k : Nat) :
    (sourcePosition? mappings k = none ↔
      (∀ line ∈ linesUpTo mappings k, line = []) ∨
        ∃ line ∈ linesUpTo mappings k, ∃ s ∈ line, ¬ Digits s) ∧
      (∀ before first rest blank, linesUpTo mappings k = before ++ (first :: rest) :: blank →
        (∀ line ∈ blank, line = []) → (∀ line ∈ linesUpTo mappings k, ∀ s ∈ line, Digits s) →
          sourcePosition? mappings k =
            some (unsigned ((place (before.flatten ++ [first])).1 +
                (k - 1 - before.length : Nat) + 1),
              unsigned (place (before.flatten ++ [first])).2)) ∧
      ∀ s, Digits s → Vlq.decode s = some ((endedNumerals s).map number) ∧
        ∀ ns, Vlq.Exact 0 0 s ns ↔ (∀ g ∈ Vlq.numerals s, Vlq.Short g) ∧
          ns = (endedNumerals s).map fun g => Vlq.signed (Vlq.magnitude g) :=
  ⟨sourcePosition?_eq_none_iff mappings k,
    fun _ _ _ _ parts empty digits => sourcePosition?_place parts empty digits,
    fun _ digits => ⟨decode_digits digits, fun _ => Vlq.exact_iff digits⟩⟩

/-- The last number of a segment is cut off by its end, and the segment is read without it. -/
theorem sourcePosition?_cut_off :
    linesUpTo "AAAg" 1 = [["AAAg".toList]] ∧
      Vlq.numerals "AAAg".toList = [['A'], ['A'], ['A'], ['g']] ∧
      endedNumerals "AAAg".toList = [['A'], ['A'], ['A']] ∧
      sourcePosition? "AAAg" 1 = some (1, 0) := by
  have lines : linesUpTo "AAAg" 1 = [["AAAg".toList]] := by decide +kernel
  have written : "AAAg".toList = [0, 0, 0, 32].map Vlq.digit := by decide +kernel
  have digits : ∀ line ∈ linesUpTo "AAAg" 1, ∀ s ∈ line, Digits s := by
    intro line mem s listed c digit
    rw [lines] at mem
    obtain rfl := List.mem_singleton.mp mem
    obtain rfl := List.mem_singleton.mp listed
    rw [written] at digit
    obtain ⟨n, -, rfl⟩ := List.mem_map.mp digit
    exact Vlq.digit_mem_alphabet n
  have numerals : Vlq.numerals "AAAg".toList = [['A'], ['A'], ['A'], ['g']] := by decide +kernel
  have ended : endedNumerals "AAAg".toList = [['A'], ['A'], ['A']] := by decide +kernel
  refine ⟨lines, numerals, ended, ?_⟩
  rw [(sourcePosition?_of_any_mappings "AAAg" 1).2.1 [] _ [] [] lines nofun digits]
  decide +kernel

end ComponentLoader.SourceMap
