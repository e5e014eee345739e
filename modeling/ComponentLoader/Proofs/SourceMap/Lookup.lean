import ComponentLoader.Proofs.SourceMap.BlockMap

/-! Looking a line up in mappings of any number of segments. A segment is written as the distances
of its fields from those of the segment before it, so what has been read up to a segment adds up to
its place in the source; of each line the place of the first segment is kept. -/
namespace ComponentLoader

/-- Parts without the separator that are put together with it fall into the same parts again. -/
theorem Text.splitOn_intercalate {sep : Char} {parts : List (List Char)} (some : parts ≠ [])
    (plain : ∀ part ∈ parts, sep ∉ part) : splitOn sep ([sep].intercalate parts) = parts := by
  induction parts with
  | nil => exact absurd rfl some
  | cons part parts ih =>
    have alone := splitOn_of_notMem (plain part List.mem_cons_self)
    cases parts with
    | nil => rw [List.intercalate_singleton, alone]
    | cons next parts =>
      have rest := ih (List.cons_ne_nil next parts) fun p hp => plain p (List.mem_cons_of_mem part hp)
      rw [List.intercalate_cons_cons, List.append_assoc, List.singleton_append, splitOn_append, alone,
        rest, List.singleton_append]

theorem Text.notMem_intercalate {c sep : Char} {parts : List (List Char)} (other : c ≠ sep)
    (plain : ∀ part ∈ parts, c ∉ part) : c ∉ [sep].intercalate parts := by
  induction parts with
  | nil => exact List.not_mem_nil
  | cons part parts ih =>
    have first := plain part List.mem_cons_self
    cases parts with
    | nil => rwa [List.intercalate_singleton]
    | cons next parts =>
      have rest := ih fun p hp => plain p (List.mem_cons_of_mem part hp)
      rw [List.intercalate_cons_cons, List.mem_append, List.mem_append, List.mem_singleton]
      rintro ((mem | same) | mem)
      · exact first mem
      · exact other same
      · exact rest mem

namespace SourceMap

/-- A segment: a column of the generated line, and the file, the line and the column that the text
from there on comes from. All are counted from 0. -/
structure Segment where
  generated : Nat
  file : Nat
  line : Nat
  column : Nat
deriving DecidableEq, Repr

namespace Segment

def origin : Segment := ⟨0, 0, 0, 0⟩

def distances (p s : Segment) : List Int :=
  [(s.generated : Int) - p.generated, (s.file : Int) - p.file, (s.line : Int) - p.line,
    (s.column : Int) - p.column]

def chain (p : Segment) : List Segment → List (List Int)
  | [] => []
  | s :: rest => p.distances s :: chain s rest

/-- The lines as they are written. Generated columns begin anew with each line, and all other fields
go on from the last segment of the lines before. -/
def chains (p : Segment) : List (List Segment) → List (List (List Int))
  | [] => []
  | line :: rest => chain { p with generated := 0 } line :: chains (line.getLastD p) rest

end Segment

open Segment (chain chains)

def lineText (segments : List (List Int)) : List Char :=
  [','].intercalate (segments.map (·.flatMap Vlq.encode))

def mappingsOf (lines : List (List Segment)) : String :=
  String.ofList ([';'].intercalate ((chains .origin lines).map lineText))

/-- All that is written of lines after a segment, and all that it adds up to, is less than 2 ^ 62 in
absolute value. -/
structure Bounded (p : Segment) (lines : List (List Segment)) : Prop where
  distances : ∀ line ∈ chains p lines, ∀ segment ∈ line, ∀ n ∈ segment, Vlq.Fits n
  sums : ∀ line ∈ lines, ∀ s ∈ line, s.line < 2 ^ 62 ∧ s.column < 2 ^ 62

def Trace.At (t : Trace) (s : Segment) : Prop := t.line = s.line ∧ t.column = s.column

variable {t : Trace} {p s : Segment} {line : List Segment} {lines : List (List Segment)} {n k : Nat}

theorem readSegment_distances (here : t.At p) (fits : ∀ n ∈ p.distances s, Vlq.Fits n)
    (small : s.line < 2 ^ 62 ∧ s.column < 2 ^ 62) :
    readSegment t ((p.distances s).flatMap Vlq.encode) =
      some { t with line := s.line, column := s.column } := by
  obtain ⟨line, column⟩ := here
  have lines : t.line + ((s.line : Int) - p.line) = s.line := by omega
  have columns : t.column + ((s.column : Int) - p.column) = s.column := by omega
  have line : Vlq.wrap s.line = s.line := (Vlq.fits_natCast small.1).wrap
  have column : Vlq.wrap s.column = s.column := (Vlq.fits_natCast small.2).wrap
  rw [Segment.distances, readSegment_encode fits, lines, columns, line, column]

/-- Reading the segments of a line comes to the last one. -/
theorem foldlM_readSegment (here : t.At p) (fits : ∀ d ∈ chain p line, ∀ n ∈ d, Vlq.Fits n)
    (small : ∀ s ∈ line, s.line < 2 ^ 62 ∧ s.column < 2 ^ 62) :
    ((chain p line).map (·.flatMap Vlq.encode)).foldlM readSegment t =
      some { t with line := (line.getLastD p).line, column := (line.getLastD p).column } := by
  induction line generalizing t p with
  | nil =>
    obtain ⟨line, column⟩ := here
    simp only [chain, List.map_nil, List.foldlM_nil, List.getLastD_nil, ← line, ← column]
    rfl
  | cons s rest ih =>
    have first := readSegment_distances here (fits _ List.mem_cons_self) (small s List.mem_cons_self)
    have further := ih (t := { t with line := s.line, column := s.column }) ⟨rfl, rfl⟩
      (fun d hd => fits d (List.mem_cons_of_mem _ hd)) fun s hs => small s (List.mem_cons_of_mem _ hs)
    rw [chain, List.map_cons, List.foldlM_cons, first, List.getLastD_cons]
    exact further

theorem notMem_segments {c : Char} (other : c ∉ Vlq.alphabet) (segments : List (List Int)) :
    ∀ part ∈ segments.map (·.flatMap Vlq.encode), c ∉ part := by
  intro part hpart
  obtain ⟨d, -, rfl⟩ := List.mem_map.mp hpart
  exact notMem_flatMap_encode other d

/-- The text of a line falls into the texts of its segments. -/
theorem segments_lineText (segments : List (List Int)) (written : ∀ d ∈ segments, d ≠ []) :
    (Text.splitOn ',' (lineText segments)).filter (!·.isEmpty) =
      segments.map (·.flatMap Vlq.encode) := by
  have filled : ∀ part ∈ segments.map (·.flatMap Vlq.encode), (!part.isEmpty) = true := by
    intro part hpart
    obtain ⟨d, hd, rfl⟩ := List.mem_map.mp hpart
    obtain ⟨n, rest, rfl⟩ := List.exists_cons_of_ne_nil (written d hd)
    simp [Vlq.encode_ne_nil]
  cases none : segments with
  | nil => rfl
  | cons d rest =>
    have plain := notMem_segments (c := ',') (by decide) segments
    rw [← none, lineText, Text.splitOn_intercalate (by simp [none]) plain]
    exact List.filter_eq_self.mpr filled

theorem chain_written (p : Segment) (line : List Segment) : ∀ d ∈ chain p line, d ≠ [] := by
  induction line generalizing p with
  | nil => nofun
  | cons s rest ih =>
    intro d hd
    rcases List.mem_cons.mp hd with rfl | hd
    · exact List.cons_ne_nil _ _
    · exact ih s d hd

def startOf (line : List Segment) (n : Nat) : Option (Int × Int × Nat) :=
  line.head?.map fun s => (s.line, s.column, n)

/-- Reading a line comes to its last segment and keeps the place of its first. -/
theorem readLine_lineText (here : t.At p)
    (fits : ∀ d ∈ chain { p with generated := 0 } line, ∀ n ∈ d, Vlq.Fits n)
    (small : ∀ s ∈ line, s.line < 2 ^ 62 ∧ s.column < 2 ^ 62) (n : Nat) :
    ∃ t', readLine t (lineText (chain { p with generated := 0 } line), n) = some t' ∧
      t'.At (line.getLastD p) ∧ t'.last = (startOf line n).or t.last := by
  have parts := segments_lineText _ (chain_written { p with generated := 0 } line)
  cases line with
  | nil =>
    refine ⟨t, ?_, here, rfl⟩
    rw [readLine, parts]
    rfl
  | cons s rest =>
    have first := readSegment_distances (p := { p with generated := 0 }) here
      (fits _ List.mem_cons_self) (small s List.mem_cons_self)
    let t' : Trace := ⟨s.line, s.column, some (s.line, s.column, n)⟩
    have started : t'.At s := ⟨rfl, rfl⟩
    have further := foldlM_readSegment started (fun d hd => fits d (List.mem_cons_of_mem _ hd))
      fun s hs => small s (List.mem_cons_of_mem _ hs)
    refine ⟨⟨(rest.getLastD s).line, (rest.getLastD s).column, some (s.line, s.column, n)⟩, ?_, ?_,
      rfl⟩
    · rw [readLine, parts]
      simp only [chain, List.map_cons, first, Option.bind_eq_bind, Option.bind_some]
      exact further
    · rw [List.getLastD_cons]
      exact ⟨rfl, rfl⟩

/-- The place of the last segment that begins a line, where lines are numbered from `n` on. -/
def lastStart (n : Nat) : List (List Segment) → Option (Int × Int × Nat)
  | [] => none
  | line :: rest => (lastStart (n + 1) rest).or (startOf line n)

/-- Reading lines keeps the place of the last segment that begins one. -/
theorem foldlM_readLine (here : t.At p) (bounded : Bounded p lines) (n : Nat) :
    ∃ t', (((chains p lines).map lineText).zipIdx n).foldlM readLine t = some t' ∧
      t'.last = (lastStart n lines).or t.last := by
  induction lines generalizing t p n with
  | nil => exact ⟨t, rfl, rfl⟩
  | cons line lines ih =>
    obtain ⟨t₁, read, there, kept⟩ := readLine_lineText here
      (bounded.distances _ List.mem_cons_self) (bounded.sums line List.mem_cons_self) n
    have rest : Bounded (line.getLastD p) lines :=
      ⟨fun d hd => bounded.distances d (List.mem_cons_of_mem _ hd),
        fun l hl => bounded.sums l (List.mem_cons_of_mem _ hl)⟩
    obtain ⟨t₂, further, last⟩ := ih there rest (n + 1)
    refine ⟨t₂, ?_, ?_⟩
    · rw [chains, List.map_cons, List.zipIdx_cons, List.foldlM_cons, read]
      exact further
    · rw [last, kept, lastStart, Option.or_assoc]

theorem take_chains (p : Segment) (lines : List (List Segment)) (k : Nat) :
    (chains p lines).take k = chains p (lines.take k) := by
  induction lines generalizing p k with
  | nil => simp [chains]
  | cons line lines ih =>
    cases k with
    | zero => rfl
    | succ k => rw [chains, List.take_succ_cons, List.take_succ_cons, chains, ih]

theorem Bounded.take (bounded : Bounded p lines) (k : Nat) : Bounded p (lines.take k) := by
  constructor
  · intro line hline
    rw [← take_chains] at hline
    exact bounded.distances line (List.mem_of_mem_take hline)
  · intro line hline
    exact bounded.sums line (List.mem_of_mem_take hline)

/-- Where lines have no segments none begins a line. -/
theorem lastStart_of_blank (blank : ∀ i < k, lines[i]?.getD [] = []) (n : Nat) :
    lastStart n (lines.take k) = none := by
  induction lines generalizing k n with
  | nil => rw [List.take_nil, lastStart]
  | cons line lines ih =>
    cases k with
    | zero => rfl
    | succ k =>
      obtain rfl : line = [] := blank 0 (Nat.succ_pos k)
      have rest := ih (fun i hi => blank (i + 1) (Nat.succ_lt_succ hi)) (n + 1)
      rw [List.take_succ_cons, lastStart, rest]
      rfl

/-- The last segment that begins a line is the first one of the last line that has some. -/
theorem lastStart_of_line {j : Nat} {rest : List Segment} (own : lines[j]? = some (s :: rest))
    (before : j < k) (blank : ∀ i, j < i → i < k → lines[i]?.getD [] = []) (n : Nat) :
    lastStart n (lines.take k) = some ((s.line : Int), (s.column : Int), n + j) := by
  induction lines generalizing j k n with
  | nil => cases own
  | cons line lines ih =>
    obtain ⟨k, rfl⟩ : ∃ k', k = k' + 1 := ⟨k - 1, by omega⟩
    rw [List.take_succ_cons, lastStart]
    cases j with
    | zero =>
      obtain rfl : line = s :: rest := Option.some.inj own
      have none : lastStart (n + 1) (lines.take k) = none :=
        lastStart_of_blank (fun i hi => blank (i + 1) (Nat.succ_pos i) (Nat.succ_lt_succ hi)) _
      rw [none]
      rfl
    | succ j =>
      have later := ih own (Nat.lt_of_succ_lt_succ before)
        (fun i hj hk => blank (i + 1) (Nat.succ_lt_succ hj) (Nat.succ_lt_succ hk)) (n + 1)
      rw [later, Option.some_or, Nat.add_assoc, Nat.add_comm 1 j]

/-- The mappings of lines fall into the texts of the lines. -/
theorem splitOn_mappingsOf (some : lines ≠ []) :
    Text.splitOn ';' (mappingsOf lines).toList = (chains .origin lines).map lineText := by
  have filled : (chains .origin lines).map lineText ≠ [] := by
    cases lines with
    | nil => exact absurd rfl some
    | cons line lines => exact List.cons_ne_nil _ _
  have plain : ∀ text ∈ (chains .origin lines).map lineText, ';' ∉ text := by
    intro text htext
    obtain ⟨segments, -, rfl⟩ := List.mem_map.mp htext
    apply Text.notMem_intercalate (by decide)
    exact notMem_segments (by decide) segments
  rw [mappingsOf, String.toList_ofList, Text.splitOn_intercalate filled plain]

/-- What is looked up is the place that the lines up to the given one have kept. -/
theorem sourcePosition?_eq (bounded : Bounded .origin lines) (positive : 1 ≤ k) :
    sourcePosition? (mappingsOf lines) k = do
      let (line, column, j) ← lastStart 0 (lines.take k)
      return (unsigned (line + (k - 1 - j : Nat) + 1), unsigned column) := by
  cases lines with
  | nil =>
    obtain ⟨k, rfl⟩ : ∃ k', k = k' + 1 := ⟨k - 1, by omega⟩
    have empty : (mappingsOf []).toList = [] := String.toList_ofList
    rw [sourcePosition?, empty, Text.splitOn, List.take_succ_cons, List.take_nil, List.take_nil]
    rfl
  | cons line lines =>
    have start : ({} : Trace).At .origin := ⟨rfl, rfl⟩
    obtain ⟨t, read, last⟩ := foldlM_readLine start (bounded.take k) 0
    rw [Option.or_none] at last
    rw [sourcePosition?, splitOn_mappingsOf (List.cons_ne_nil line lines), ← List.map_take,
      take_chains, read, Option.bind_eq_bind, Option.bind_some, last]

/-- Looking a line up in mappings finds what was written. The line comes from where its first
segment says. A line without segments goes on from the nearest one before it that has some, as many
lines further down, and comes from nowhere if there is none. Lines are counted from 1 in what is
asked for and in what is found, where they are numbers of 64 bits. -/
theorem sourcePosition?_mappingsOf (bounded : Bounded .origin lines) (positive : 1 ≤ k) :
    (∀ j s rest, lines[j]? = some (s :: rest) → j < k →
      (∀ i, j < i → i < k → lines[i]?.getD [] = []) →
        sourcePosition? (mappingsOf lines) k =
          some ((s.line + 1 + (k - (j + 1))) % 2 ^ 64, s.column)) ∧
      ((∀ i < k, lines[i]?.getD [] = []) → sourcePosition? (mappingsOf lines) k = none) := by
  rw [sourcePosition?_eq bounded positive]
  constructor
  · intro j s rest own before blank
    have small := (bounded.sums _ (List.mem_of_getElem? own) s List.mem_cons_self).2
    have line : (s.line : Int) + (k - 1 - (0 + j) : Nat) + 1 = (s.line + 1 + (k - (j + 1)) : Nat) := by
      omega
    rw [lastStart_of_line own before blank]
    change some (unsigned (s.line + (k - 1 - (0 + j) : Nat) + 1), unsigned s.column) = _
    rw [line, unsigned_natCast_mod, unsigned_natCast (by omega)]
  · intro blank
    rw [lastStart_of_blank blank]
    rfl

/-- A line with two segments after one without any, and two lines without before the last one. -/
theorem sourcePosition?_mappingsOf_skipped :
    let lines : List (List Segment) :=
      [[], [⟨0, 0, 4, 7⟩, ⟨9, 1, 2, 30⟩], [], [], [⟨3, 0, 0, 5⟩]]
    Bounded .origin lines ∧ mappingsOf lines = ";AAIO,SCFuB;;;GDFzB" ∧
      sourcePosition? (mappingsOf lines) 1 = none ∧
      sourcePosition? (mappingsOf lines) 4 = some (7, 7) ∧
      sourcePosition? (mappingsOf lines) 5 = some (1, 5) := by
  intro lines
  have bounded : Bounded .origin lines := ⟨by decide, by decide⟩
  refine ⟨bounded, by decide +kernel, ?_, ?_, ?_⟩
  · exact (sourcePosition?_mappingsOf bounded (by decide)).2 (by decide)
  · have blank : ∀ i, 1 < i → i < 4 → lines[i]?.getD [] = [] := by
      intro i above below
      obtain rfl | rfl : i = 2 ∨ i = 3 := by omega
      · rfl
      · rfl
    exact (sourcePosition?_mappingsOf bounded (by decide)).1 1 _ _ rfl (by decide) blank
  · have last : ∀ i, 4 < i → i < 5 → lines[i]?.getD [] = [] := fun i above below => by omega
    exact (sourcePosition?_mappingsOf bounded (by decide)).1 4 _ _ rfl (by decide) last

end SourceMap

end ComponentLoader
