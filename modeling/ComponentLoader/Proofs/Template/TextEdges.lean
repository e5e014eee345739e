import ComponentLoader.Proofs.Template.Preorder
import ComponentLoader.Proofs.Text.Edges

/-! The edges of texts where all are trimmed. A text goes on from tag to tag, and is read in pieces
where comments or lone brackets stand in it. Trimming takes the white space at the outer ends of
its first and its last piece. Where that is all there is of the piece, the text begins or ends
with the piece next to it, which is as it was. -/
namespace ComponentLoader.Template

open Markup (Delimiters Dialect Lexeme Token)

open Text (AllSpace isSpace)

def Expr.firstLiteral? : Expr → Option String
  | .string v => some v
  | .text (.string v :: _) => some v
  | _ => none

def Expr.lastLiteral? : Expr → Option String
  | .string v => some v
  | .text es =>
    match es.getLast? with
    | some (.string v) => some v
    | _ => none
  | _ => none

/-- An expression without white space at its edges. It is no literal text that is empty or nothing
but white space, and the literal text that it is or begins with does not begin with white space, nor
does the one that it is or ends with end with it. -/
structure Expr.Tight (e : Expr) : Prop where
  written : ∀ v, e = .string v → ¬ AllSpace v.toList
  front : ∀ v c, e.firstLiteral? = some v → v.toList.head? = some c → isSpace c = false
  back : ∀ v c, e.lastLiteral? = some v → v.toList.getLast? = some c → isSpace c = false

/-- A literal text of nothing but white space, of which trimming leaves nothing. -/
def Piece.Vanishes : Piece → Prop
  | .literal t => AllSpace t.toList
  | .interpolation _ => False

/-- From an edge on there is an interpolation or a character that is no white space. Literal text
of no characters counts for nothing. -/
def Bare (edge : List Char → Option Char) : List Piece → Prop
  | [] => False
  | .interpolation _ :: _ => True
  | .literal t :: rest =>
    match edge t.toList with
    | none => Bare edge rest
    | some c => isSpace c = false

/-- Trimming the first of the pieces leaves no white space at the edge of their text: the piece does
not vanish, or the edge that shows behind it is bare. -/
def TrimsBare (edge : List Char → Option Char) : List Piece → Prop
  | [] => False
  | p :: rest => p.Vanishes → Bare edge rest

/-- The pieces of a text that full trimming does not leave out. -/
def Item.keptRun? : Item → Option (List Piece)
  | .element _ => none
  | .text run => if run.all Builder.isBlankPiece then none else some run

/-- The node is the text that the pieces are trimmed to. Its edges are free of white space just
where the trimming of the first piece and that of the last one leave them so. -/
structure Node.TrimmedText (d : Delimiters) (run : List Piece) (n : Node) : Prop where
  trimmed : n = .ofPieces d (Builder.trimEnds run)
  tight : ∀ e, n.text = some e →
    (e.Tight ↔ TrimsBare List.head? run ∧ TrimsBare List.getLast? run.reverse)

variable {d : Delimiters} {edge : List Char → Option Char} {p q : Piece} {ps run : List Piece}
  {es : List Expr}

/-! What pieces are read as begins and ends as they do. -/

def Expr.IsSegment : Expr → Prop
  | .string v => v ≠ ""
  | .interpolation _ _ => True
  | _ => False

def Expr.BareAt (edge : List Char → Option Char) : Expr → Prop
  | .string v => ∃ c, edge v.toList = some c ∧ isSpace c = false
  | _ => True

theorem exists_ofInterpolation (d : Delimiters) (s : List Char) :
    ∃ expr filters, Expr.ofInterpolation d s = .interpolation expr filters := by
  unfold Expr.ofInterpolation
  split
  · exact ⟨_, _, rfl⟩
  · exact ⟨_, _, rfl⟩

theorem isSegment_of_mem_segments {e : Expr} (h : e ∈ segments d ps) : e.IsSegment := by
  induction ps with
  | nil => cases h
  | cons p ps ih =>
    cases p with
    | interpolation s =>
      obtain ⟨expr, filters, read⟩ := exists_ofInterpolation d s.toList
      rw [segments, read] at h
      rcases List.mem_cons.mp h with rfl | h
      · trivial
      · exact ih h
    | literal t =>
      rw [segments] at h
      split at h
      · exact ih h
      · next some =>
        split at h
        · next more exprs joined =>
          rcases List.mem_cons.mp h with rfl | h
          · intro none
            exact some (String.append_eq_empty_iff.mp none).1
          · exact ih (by rw [joined]; exact List.mem_cons_of_mem _ h)
        · rcases List.mem_cons.mp h with rfl | h
          · exact some
          · exact ih h

/-- Literal text before other pieces is what the first segment begins with. -/
theorem exists_segments_literal (d : Delimiters) (ps : List Piece) {t : String} (some : t ≠ "") :
    ∃ w es, segments d (.literal t :: ps) = .string (t ++ w) :: es := by
  rw [segments, if_neg some]
  split
  · exact ⟨_, _, rfl⟩
  · exact ⟨"", _, by rw [String.append_empty]⟩

/-- The first segment begins as the pieces do. -/
theorem bare_front_iff (d : Delimiters) (ps : List Piece) :
    Bare List.head? ps ↔ ∃ e, (segments d ps).head? = some e ∧ e.BareAt List.head? := by
  induction ps with
  | nil => simp [Bare, segments]
  | cons p ps ih =>
    cases p with
    | interpolation s =>
      obtain ⟨expr, filters, read⟩ := exists_ofInterpolation d s.toList
      simp [Bare, segments, read, Expr.BareAt]
    | literal t =>
      cases written : t.toList with
      | nil =>
        obtain rfl := String.toList_eq_nil_iff.mp written
        exact ih
      | cons c rest =>
        have some : t ≠ "" := by
          rintro rfl
          cases written
        obtain ⟨w, es, read⟩ := exists_segments_literal d ps some
        simp [Bare, read, Expr.BareAt, String.toList_append, written]

/-- What pieces at the end are read as is all that counts of them. -/
theorem segments_append_congr {qs qs' : List Piece} (h : segments d qs = segments d qs')
    (ps : List Piece) : segments d (ps ++ qs) = segments d (ps ++ qs') := by
  induction ps with
  | nil => exact h
  | cons p ps ih =>
    cases p with
    | interpolation s => rw [List.cons_append, segments, ih, List.cons_append, segments]
    | literal t => rw [List.cons_append, segments, ih, List.cons_append, segments]

theorem segments_append_interpolation (d : Delimiters) (ps : List Piece) (s : String) :
    segments d (ps ++ [.interpolation s]) = segments d ps ++ [.ofInterpolation d s.toList] := by
  induction ps with
  | nil => rfl
  | cons p ps ih =>
    cases p with
    | interpolation r => rw [List.cons_append, segments, ih, segments, List.cons_append]
    | literal t =>
      obtain ⟨expr, filters, read⟩ := exists_ofInterpolation d s.toList
      rw [List.cons_append, segments, ih, segments, read]
      split
      · rfl
      · cases segments d ps with
        | nil => rfl
        | cons e es => cases e <;> rfl

/-- Literal text after other pieces is what the last segment ends with. -/
theorem exists_segments_append_literal (d : Delimiters) (ps : List Piece) {t : String}
    (some : t ≠ "") : ∃ es w, segments d (ps ++ [.literal t]) = es ++ [.string (w ++ t)] := by
  induction ps with
  | nil => exact ⟨[], "", by simp [segments, some]⟩
  | cons p ps ih =>
    obtain ⟨es, w, read⟩ := ih
    cases p with
    | interpolation s =>
      refine ⟨.ofInterpolation d s.toList :: es, w, ?_⟩
      rw [List.cons_append, segments, read, List.cons_append]
    | literal r =>
      rw [List.cons_append, segments, read]
      split
      · exact ⟨es, w, rfl⟩
      · cases es with
        | nil => exact ⟨[], r ++ w, by simp [String.append_assoc]⟩
        | cons e es =>
          cases e with
          | string v => exact ⟨.string (r ++ v) :: es, w, rfl⟩
          | _ => exact ⟨.string r :: _ :: es, w, rfl⟩

/-- The last segment ends as the pieces do. -/
theorem bare_back_iff (d : Delimiters) (ps : List Piece) :
    Bare List.getLast? ps.reverse ↔
      ∃ e, (segments d ps).getLast? = some e ∧ e.BareAt List.getLast? := by
  induction ps using List.reverseRecOn with
  | nil => simp [Bare, segments]
  | append_singleton ps p ih =>
    rw [List.reverse_append, List.reverse_singleton, List.singleton_append]
    cases p with
    | interpolation s =>
      obtain ⟨expr, filters, read⟩ := exists_ofInterpolation d s.toList
      simp [Bare, segments_append_interpolation, read, Expr.BareAt]
    | literal t =>
      rw [Bare]
      cases last : t.toList.getLast? with
      | none =>
        obtain rfl : t = "" := String.toList_eq_nil_iff.mp (List.getLast?_eq_none_iff.mp last)
        have empty : segments d [.literal ""] = segments d [] := rfl
        have dropped : segments d (ps ++ [.literal ""]) = segments d (ps ++ []) :=
          segments_append_congr empty ps
        rw [dropped, List.append_nil]
        exact ih
      | some c =>
        have some : t ≠ "" := by
          rintro rfl
          cases last
        obtain ⟨es, w, read⟩ := exists_segments_append_literal d ps some
        simp [read, Expr.BareAt, String.toList_append, last]

/-- A segment is bare at an edge if it does not have white space there. -/
theorem Expr.IsSegment.bareAt_iff {e : Expr} (segment : e.IsSegment)
    (ends : ∀ s, edge s = none → s = []) :
    e.BareAt edge ↔ ∀ v c, e = .string v → edge v.toList = some c → isSpace c = false := by
  cases e with
  | string v =>
    constructor
    · rintro ⟨c, shown, bare⟩ v' c' same shown'
      obtain rfl := Expr.string.inj same
      obtain rfl := Option.some.inj (shown.symm.trans shown')
      exact bare
    · intro bare
      cases shown : edge v.toList with
      | none => exact absurd (String.toList_eq_nil_iff.mp (ends _ shown)) segment
      | some c => exact ⟨c, shown, bare v c rfl shown⟩
  | interpolation expr filters => exact ⟨fun _ _ _ => nofun, fun _ => trivial⟩
  | bool _ => cases segment
  | text _ => cases segment
  | raw _ => cases segment

/-- A segment on its own. -/
theorem Expr.IsSegment.tight_iff {e : Expr} (segment : e.IsSegment) :
    e.Tight ↔ e.BareAt List.head? ∧ e.BareAt List.getLast? := by
  rw [segment.bareAt_iff fun _ => List.head?_eq_none_iff.mp,
    segment.bareAt_iff fun _ => List.getLast?_eq_none_iff.mp]
  cases e with
  | string v =>
    constructor
    · intro tight
      exact ⟨fun v c same => tight.front v c (congrArg some (Expr.string.inj same)),
        fun v c same => tight.back v c (congrArg some (Expr.string.inj same))⟩
    · rintro ⟨front, back⟩
      refine ⟨?_, fun v c same => front v c (congrArg Expr.string (Option.some.inj same)),
        fun v c same => back v c (congrArg Expr.string (Option.some.inj same))⟩
      intro v same all
      obtain ⟨c, rest, written⟩ : ∃ c rest, v.toList = c :: rest := by
        obtain rfl := Expr.string.inj same
        exact List.exists_cons_of_ne_nil (mt String.toList_eq_nil_iff.mp segment)
      have bare : isSpace c = false := front v c same (by rw [written]; rfl)
      rw [all c (by rw [written]; exact List.mem_cons_self)] at bare
      cases bare
  | interpolation expr filters =>
    exact ⟨fun _ => ⟨nofun, nofun⟩, fun _ => ⟨nofun, nofun, nofun⟩⟩
  | bool _ => cases segment
  | text _ => cases segment
  | raw _ => cases segment

theorem Expr.firstLiteral?_text {e : Expr} {v : String} :
    (Expr.text (e :: es)).firstLiteral? = some v ↔ e = .string v := by
  cases e <;> simp [firstLiteral?]

theorem Expr.lastLiteral?_text {e : Expr} {v : String} (last : es.getLast? = some e) :
    (Expr.text es).lastLiteral? = some v ↔ e = .string v := by
  cases e <;> simp [lastLiteral?, last]

/-- Segments of which there are several. -/
theorem Expr.tight_text_iff {e : Expr} (segment : ∀ e' ∈ e :: es, e'.IsSegment) :
    (Expr.text (e :: es)).Tight ↔
      e.BareAt List.head? ∧ ∃ e', (e :: es).getLast? = some e' ∧ e'.BareAt List.getLast? := by
  have bareFront := (segment e List.mem_cons_self).bareAt_iff fun _ => List.head?_eq_none_iff.mp
  have bareBack {e' : Expr} (last : (e :: es).getLast? = some e') :=
    (segment e' (List.mem_of_getLast? last)).bareAt_iff fun _ => List.getLast?_eq_none_iff.mp
  constructor
  · intro tight
    have last := List.getLast?_eq_some_getLast (List.cons_ne_nil e es)
    refine ⟨bareFront.mpr ?_, _, last, (bareBack last).mpr ?_⟩
    · intro v c same
      exact tight.front v c (firstLiteral?_text.mpr same)
    · intro v c same
      exact tight.back v c ((lastLiteral?_text last).mpr same)
  · rintro ⟨front, e', last, back⟩
    refine ⟨nofun, ?_, ?_⟩
    · intro v c first
      exact bareFront.mp front v c (firstLiteral?_text.mp first)
    · intro v c final
      exact (bareBack last).mp back v c ((lastLiteral?_text last).mp final)

/-- A text of pieces is free of white space at its edges where the pieces are. -/
theorem tight_ofPieces_iff (d : Delimiters) (ps : List Piece) :
    (Expr.ofPieces d ps).Tight ↔ Bare List.head? ps ∧ Bare List.getLast? ps.reverse := by
  have segment : ∀ e ∈ segments d ps, e.IsSegment := fun e => isSegment_of_mem_segments
  rw [bare_front_iff d, bare_back_iff d, Expr.ofPieces]
  generalize segments d ps = es at segment
  cases es with
  | nil =>
    have blank : ¬ Expr.Tight (.string "") := by
      intro tight
      exact tight.written "" rfl fun c hc => absurd hc List.not_mem_nil
    simpa [Expr.ofSegments] using blank
  | cons e es =>
    cases es with
    | nil => simpa [Expr.ofSegments] using (segment e List.mem_cons_self).tight_iff
    | cons e' es => simpa [Expr.ofSegments] using Expr.tight_text_iff segment

/-! Trimming clears the edge of a piece, and what stays at the other edge is as it was. -/

theorem bare_append_congr {qs qs' : List Piece} (h : Bare edge qs ↔ Bare edge qs')
    (ps : List Piece) : Bare edge (ps ++ qs) ↔ Bare edge (ps ++ qs') := by
  induction ps with
  | nil => exact h
  | cons p ps ih =>
    cases p with
    | interpolation s => exact Iff.rfl
    | literal t =>
      rw [List.cons_append, Bare, ih, List.cons_append, Bare]

/-- The edge of a piece from which the white space is taken. -/
theorem bare_cons_of_cleared {t t' : String} {ps : List Piece}
    (gone : AllSpace t.toList → edge t'.toList = none)
    (left : ¬ AllSpace t.toList → ∃ c, edge t'.toList = some c ∧ isSpace c = false) :
    Bare edge (.literal t' :: ps) ↔ ((Piece.literal t).Vanishes → Bare edge ps) := by
  by_cases all : AllSpace t.toList
  · rw [Bare, gone all]
    exact ⟨fun bare _ => bare, fun bare => bare all⟩
  · obtain ⟨c, shows, bare⟩ := left all
    rw [Bare, shows]
    exact ⟨fun _ vanishes => absurd vanishes all, fun _ => bare⟩

theorem bare_trimPieceStart (p : Piece) (ps : List Piece) :
    Bare List.head? (Builder.trimPieceStart p :: ps) ↔ (p.Vanishes → Bare List.head? ps) := by
  cases p with
  | interpolation s => exact ⟨nofun, fun _ => trivial⟩
  | literal t =>
    apply bare_cons_of_cleared
    · intro all
      rw [String.toList_ofList, Text.trimStart_eq_nil_iff.mpr all]
      rfl
    · intro some
      rw [String.toList_ofList]
      obtain ⟨c, rest, left⟩ := List.exists_cons_of_ne_nil (mt Text.trimStart_eq_nil_iff.mp some)
      have shows : (Text.trimStart t.toList).head? = .some c := by rw [left]; rfl
      exact ⟨c, shows, Text.isSpace_head?_trimStart shows⟩

theorem bare_trimPieceEnd (p : Piece) (ps : List Piece) :
    Bare List.getLast? (Builder.trimPieceEnd p :: ps) ↔
      (p.Vanishes → Bare List.getLast? ps) := by
  cases p with
  | interpolation s => exact ⟨nofun, fun _ => trivial⟩
  | literal t =>
    apply bare_cons_of_cleared
    · intro all
      rw [String.toList_ofList, Text.trimEnd_eq_nil_iff.mpr all]
      rfl
    · intro some
      rw [String.toList_ofList]
      have shows := List.getLast?_eq_some_getLast (mt Text.trimEnd_eq_nil_iff.mp some)
      exact ⟨_, shows, Text.isSpace_getLast?_trimEnd shows⟩

theorem bare_literal_iff {t : String} :
    Bare edge [.literal t] ↔ ∃ c, edge t.toList = some c ∧ isSpace c = false := by
  rw [Bare]
  cases edge t.toList <;> simp [Bare]

/-- A piece alone, of which the white space at the other edge is taken. Where nothing is left there
was nothing but white space at this edge. -/
theorem bare_of_spared {t t' : String} (gone : AllSpace t.toList → t'.toList = [])
    (spared : ¬ AllSpace t.toList → edge t'.toList = edge t.toList)
    (ends : edge [] = none) (within : ∀ {s c}, edge s = some c → c ∈ s) :
    Bare edge [.literal t'] ↔ Bare edge [.literal t] := by
  rw [bare_literal_iff, bare_literal_iff]
  by_cases all : AllSpace t.toList
  · rw [gone all, ends]
    constructor
    · rintro ⟨c, shows, -⟩
      cases shows
    · rintro ⟨c, shows, bare⟩
      rw [all c (within shows)] at bare
      cases bare
  · rw [spared all]

theorem bare_head?_trimPieceEnd (p : Piece) :
    Bare List.head? [Builder.trimPieceEnd p] ↔ Bare List.head? [p] := by
  cases p with
  | interpolation s => exact Iff.rfl
  | literal t =>
    apply bare_of_spared
    · intro all
      rw [String.toList_ofList, Text.trimEnd_eq_nil_iff.mpr all]
    · intro some
      rw [String.toList_ofList, Text.head?_trimEnd some]
    · rfl
    · exact List.mem_of_head?

theorem bare_getLast?_trimPieceStart (p : Piece) :
    Bare List.getLast? [Builder.trimPieceStart p] ↔ Bare List.getLast? [p] := by
  cases p with
  | interpolation s => exact Iff.rfl
  | literal t =>
    apply bare_of_spared
    · intro all
      rw [String.toList_ofList, Text.trimStart_eq_nil_iff.mpr all]
    · intro some
      rw [String.toList_ofList, Text.getLast?_trimStart some]
    · rfl
    · exact List.mem_of_getLast?

theorem vanishes_trimPieceStart (p : Piece) :
    (Builder.trimPieceStart p).Vanishes ↔ p.Vanishes := by
  cases p with
  | interpolation s => exact Iff.rfl
  | literal t =>
    unfold Builder.trimPieceStart Piece.Vanishes
    dsimp only
    rw [String.toList_ofList, Text.allSpace_trimStart_iff]

/-! The first and the last piece of a text are two pieces, or one with both edges. -/

theorem trimEnds_cons_append (p q : Piece) (ps : List Piece) :
    Builder.trimEnds (p :: (ps ++ [q])) =
      Builder.trimPieceStart p :: (ps ++ [Builder.trimPieceEnd q]) := by
  have last : (p :: (ps ++ [q])).length - 1 = (Builder.trimPieceStart p :: ps).length + 0 := by
    simp
  unfold Builder.trimEnds
  rw [last]
  exact List.modifyTailIdx_add _ 0 (Builder.trimPieceStart p :: ps) [q]

theorem bare_front_trimEnds (run : List Piece) :
    Bare List.head? (Builder.trimEnds run) ↔ TrimsBare List.head? run := by
  cases run with
  | nil => exact Iff.rfl
  | cons p rest =>
    rcases List.eq_nil_or_concat' rest with rfl | ⟨ps, q, rfl⟩
    · exact (bare_head?_trimPieceEnd _).trans (bare_trimPieceStart p [])
    · rw [trimEnds_cons_append, bare_trimPieceStart]
      exact imp_congr_right fun _ => bare_append_congr (bare_head?_trimPieceEnd q) ps

theorem bare_back_trimEnds (run : List Piece) :
    Bare List.getLast? (Builder.trimEnds run).reverse ↔ TrimsBare List.getLast? run.reverse := by
  cases run with
  | nil => exact Iff.rfl
  | cons p rest =>
    rcases List.eq_nil_or_concat' rest with rfl | ⟨ps, q, rfl⟩
    · exact (bare_trimPieceEnd _ []).trans (imp_congr_left (vanishes_trimPieceStart p))
    · have turned (p q : Piece) : (p :: (ps ++ [q])).reverse = q :: (ps.reverse ++ [p]) := by simp
      rw [trimEnds_cons_append, turned, turned, bare_trimPieceEnd]
      exact imp_congr_right fun _ => bare_append_congr (bare_getLast?_trimPieceStart p) ps.reverse

theorem trimmedText_ofPieces (d : Delimiters) (run : List Piece) :
    Node.TrimmedText d run (.ofPieces d (Builder.trimEnds run)) := by
  refine ⟨rfl, fun e text => ?_⟩
  obtain rfl := Option.some.inj text
  rw [tight_ofPieces_iff, bare_front_trimEnds, bare_back_trimEnds]

/-- The texts among the nodes of items are those whose pieces are kept. -/
theorem filter_isText_nodes (d : Delimiters) {is : List Item}
    (filled : ∀ run, .text run ∈ is → run ≠ []) :
    (is.flatMap (Item.nodes .all d)).filter Node.isText =
      (is.filterMap Item.keptRun?).map fun run => .ofPieces d (Builder.trimEnds run) := by
  induction is with
  | nil => rfl
  | cons i is ih =>
    rw [List.flatMap_cons, List.filter_append, ih fun run later =>
      filled run (List.mem_cons_of_mem i later)]
    cases i with
    | element tag => rfl
    | text run =>
      have some : run ≠ [] := filled run List.mem_cons_self
      cases blank : run.all Builder.isBlankPiece with
      | true =>
        have dropped : Trim.pieces? .all run = none := by simp [Trim.pieces?, blank]
        have left : (Item.text run).keptRun? = none := by simp [Item.keptRun?, blank]
        rw [Item.nodes, dropped, List.filterMap_cons_none left]
        rfl
      | false =>
        have kept : Trim.pieces? .all run = .some (Builder.trimEnds run) := by
          simp [Trim.pieces?, blank, some]
        have left : (Item.text run).keptRun? = .some run := by simp [Item.keptRun?, blank]
        rw [Item.nodes, kept, List.filterMap_cons_some left]
        rfl

/-- Full trimming leaves one text for each run of pieces that are not all blank, at any depth and in
the order of the source. The white space at its edges is gone unless the piece at the edge
vanishes and the text behind it begins or ends with white space or is missing. -/
theorem full_trim_edges (d : Delimiters) (source : String) :
    ∃ before after : List Node, (∀ n ∈ before ++ after, n.isBlankText = true) ∧
      List.Forall₂ (Node.TrimmedText d)
        ((items [] (((Dialect.template d).lexemes source).map (·.token))).filterMap Item.keptRun?)
        ((before ++ Node.preorderAll (parse ⟨.all, d⟩ source).node.children ++ after).filter
          Node.isText) := by
  obtain ⟨before, after, blank, walked⟩ := walk_parse ⟨.all, d⟩ source
  refine ⟨before, after, blank, ?_⟩
  rw [← walked, walk_built, filter_isText_nodes d fun run => run_ne_nil_of_mem_items]
  exact List.forall₂_map_right_iff.mpr
    (List.forall₂_same.mpr fun run _ => trimmedText_ofPieces d run)

/-- The blank piece before a comment vanishes, and the space behind the comment stays. -/
example : ((parse ⟨.all, {}⟩ "<p> <!--c--> a</p>").node.children.flatMap (·.children)).map
    (·.text.bind Expr.firstLiteral?) = [some " a"] := by
  decide +kernel

end ComponentLoader.Template
