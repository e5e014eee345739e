import ComponentLoader.SourceMap.Basic
import ComponentLoader.Proofs.Request.Query
import ComponentLoader.Proofs.SourceMap.Vlq
import ComponentLoader.Proofs.Text.Lines
import ComponentLoader.Proofs.Tiling

/-! The map of a block. Its single segment places the first generated line where the
content of the block begins, and the further lines in the lines after that. -/
namespace ComponentLoader.SourceMap

theorem notMem_flatMap_encode {sep : Char} (h : sep ∉ Vlq.alphabet) (ns : List Int) :
    sep ∉ ns.flatMap Vlq.encode := by
  intro mem
  obtain ⟨n, -, digit⟩ := List.mem_flatMap.mp mem
  exact h (Vlq.mem_alphabet_of_mem_encode digit)

theorem unsigned_natCast_mod (n : Nat) : unsigned n = n % 2 ^ 64 := by
  unfold unsigned
  omega

theorem unsigned_natCast {n : Nat} (h : n < 2 ^ 64) : unsigned n = n := by
  rw [unsigned_natCast_mod, Nat.mod_eq_of_lt h]

/-- A segment of four numbers moves the place in the source by the last two. -/
theorem readSegment_encode {t : Trace} {generated file line column : Int}
    (fits : ∀ n ∈ [generated, file, line, column], Vlq.Fits n) :
    readSegment t ([generated, file, line, column].flatMap Vlq.encode) =
      some { t with line := Vlq.wrap (t.line + line), column := Vlq.wrap (t.column + column) } := by
  rw [readSegment, Vlq.decode_flatMap_encode fits]
  rfl

/-- A line of a single segment is read as that segment. -/
theorem readLine_single {s : List Char} {t t' : Trace} (plain : ',' ∉ s) (filled : s ≠ [])
    (read : readSegment t s = some t') (n : Nat) :
    readLine t (s, n) = some { t' with last := some (t'.line, t'.column, n) } := by
  have one : (Text.splitOn ',' s).filter (!·.isEmpty) = [s] := by
    rw [Text.splitOn_of_notMem plain]
    simp [filled]
  rw [readLine, one]
  simp only [read, List.foldlM_nil]
  rfl

/-- Mappings of a single segment. Every generated line is as far from the place of the segment as
it is from the first. -/
theorem sourcePosition?_segment {line column k : Nat} (fitsLine : Vlq.Fits line)
    (fitsColumn : Vlq.Fits column) (positive : 1 ≤ k) (held : line + k < 2 ^ 64) :
    sourcePosition? (String.ofList ([0, 0, (line : Int), (column : Int)].flatMap Vlq.encode)) k =
      some (line + k, column) := by
  have read : readSegment {} ([0, 0, (line : Int), (column : Int)].flatMap Vlq.encode) =
      some { line := line, column := column } := by
    have zero : Vlq.Fits 0 := by decide
    rw [readSegment_encode (by simp [zero, fitsLine, fitsColumn])]
    simp only [Int.zero_add, fitsLine.wrap, fitsColumn.wrap]
  have filled : [0, 0, (line : Int), (column : Int)].flatMap Vlq.encode ≠ [] := by
    simp [Vlq.encode_ne_nil]
  have traced := readLine_single (notMem_flatMap_encode (by decide) _) filled read 0
  have oneLine := Text.splitOn_of_notMem (notMem_flatMap_encode (by decide : ';' ∉ Vlq.alphabet)
    [0, 0, (line : Int), (column : Int)])
  have sum : (line : Int) + ((k - 1 - 0 : Nat) : Int) + 1 = (line + k : Nat) := by omega
  have wide : column < 2 ^ 64 := by
    have := fitsColumn.2
    omega
  rw [sourcePosition?, String.toList_ofList, oneLine, List.take_of_length_le positive,
    List.zipIdx_singleton, List.foldlM_cons, traced]
  change some (unsigned ((line : Int) + ((k - 1 - 0 : Nat) : Int) + 1), unsigned column) = _
  rw [sum, unsigned_natCast held, unsigned_natCast wide]

/-- A place after the text `before` is in the column that its last line ends with. -/
theorem utf16Column_append (before after : List Char) :
    utf16Column (String.ofList (before ++ after)) (Text.utf8Length before) =
      Text.utf16Length (Text.lastLine before) := by
  rw [utf16Column, String.toList_ofList, Text.takeBytes_append, Text.lastLine,
    Text.utf16Length_reverse]

/-- The line and the column of a place, both counted from 0, can be written in mappings. -/
def Writable (source : String) (p : Position) : Prop :=
  Vlq.Fits (p.line - 1) ∧ Vlq.Fits (utf16Column source p.offset)

section Part

variable {source : String} {before part after line : List Char} {n : Nat}

theorem line_start_advance (before : List Char) :
    ((Position.start.advance before).line : Int) - 1 = (before.count '\n' : Int) := by
  rw [Position.line_advance]
  simp only [Position.start]
  omega

theorem utf16Column_of_parts (parts : source.toList = before ++ part ++ after) :
    utf16Column source (Position.start.advance before).offset =
      Text.utf16Length (Text.lastLine before) := by
  have whole : source = String.ofList (before ++ (part ++ after)) := by
    rw [← List.append_assoc, ← parts, String.ofList_toList]
  rw [Position.offset_start_advance, whole, utf16Column_append]

/-- Every place of a text can be written, unless the text takes 2 ^ 62 bytes. -/
theorem writable_of_lt {p : Position} (h : p.In source)
    (held : Text.utf8Length source.toList < 2 ^ 62) : Writable source p := by
  obtain ⟨before, after, parts, rfl⟩ := h
  have lengths := congrArg Text.utf8Length parts
  rw [Text.utf8Length_append] at lengths
  constructor
  · have breaks := Text.count_le_utf8Length '\n' before
    rw [line_start_advance]
    exact Vlq.fits_natCast (by omega)
  · have units : Text.utf16Length (Text.lastLine before) ≤ Text.utf8Length before :=
      Nat.le_trans (Text.utf16Length_lastLine_le before) (Text.utf16Length_le before)
    have nothing : source.toList = before ++ [] ++ after := by rw [parts, List.append_nil]
    rw [utf16Column_of_parts nothing]
    exact Vlq.fits_natCast (by omega)

/-- The lines of a part of a text are where the map of the part says: the first one from the
column on that is recorded, and the others from the beginning of a line on. -/
theorem sourcePosition?_ofBlock (filename : String)
    (parts : source.toList = before ++ part ++ after)
    (writable : Writable source (Position.start.advance before))
    (held : Text.utf8Length source.toList < 2 ^ 63) (own : (Text.lines part)[n]? = some line) :
    ∃ more,
      sourcePosition? (ofBlock filename source (Position.start.advance before)).mappings (n + 1) =
        some (before.count '\n' + (n + 1), Text.utf16Length (Text.lastLine before)) ∧
      (Text.lines source.toList)[before.count '\n' + n]? =
        some ((if n = 0 then Text.lastLine before else []) ++ line ++ more) := by
  have place := line_start_advance before
  have column := utf16Column_of_parts parts
  obtain ⟨fitsLine, fitsColumn⟩ := writable
  rw [place] at fitsLine
  rw [column] at fitsColumn
  have rows : before.count '\n' + (n + 1) < 2 ^ 64 := by
    have lengths := congrArg Text.utf8Length parts
    simp only [Text.utf8Length_append] at lengths
    have outer := Text.count_le_utf8Length '\n' before
    have inner := Text.count_le_utf8Length '\n' part
    obtain ⟨here, -⟩ := List.getElem?_eq_some_iff.mp own
    rw [Text.length_lines] at here
    omega
  obtain ⟨more, found⟩ := Text.line_of_part own before after
  refine ⟨more, ?_, ?_⟩
  · simp only [ofBlock, place, column, fitsLine.wrap]
    exact sourcePosition?_segment fitsLine fitsColumn (Nat.le_add_left 1 n) rows
  · rw [parts]
    exact found

end Part

end ComponentLoader.SourceMap
