import ComponentLoader.Proofs.Json.Literals
import ComponentLoader.Proofs.Request.Query
import ComponentLoader.Proofs.Text.Lines

/-! Lines of code with string literals in them. A quote opens a literal, which is read as a JSON
string, and everything else is code as it stands. A literal is read to its own end in one line,
whatever its text, so text that is written as literals neither ends a line nor becomes code. -/
namespace ComponentLoader

/-- What a line of code is made of: characters, and literals that stand for texts. -/
inductive Piece where
  | code (c : Char)
  | literal (value : String)

namespace Json.Input

theorem length_units {s rest : List Char} {us : List (Char ⊕ Nat)}
    (h : units s = some (us, rest)) : rest.length < s.length := by
  fun_induction units s generalizing us with
  | case1 s =>
    cases h
    exact Nat.lt_succ_self _
  | case2 a b c d s ih =>
    obtain ⟨unit, -, h⟩ := Option.bind_eq_some_iff.mp h
    obtain ⟨⟨more, t⟩, read, h⟩ := Option.bind_eq_some_iff.mp h
    cases h
    have shorter := ih read
    simp only [List.length_cons]
    omega
  | case3 c s _ ih =>
    obtain ⟨c, -, h⟩ := Option.bind_eq_some_iff.mp h
    obtain ⟨⟨more, t⟩, read, h⟩ := Option.bind_eq_some_iff.mp h
    cases h
    have shorter := ih read
    simp only [List.length_cons]
    omega
  | case4 c s _ _ _ ih =>
    obtain ⟨_, -, h⟩ := Option.bind_eq_some_iff.mp h
    obtain ⟨⟨more, t⟩, read, h⟩ := Option.bind_eq_some_iff.mp h
    cases h
    exact Nat.lt_succ_of_lt (ih read)
  | case5 => cases h

theorem length_readString {s rest : List Char} {value : Option String}
    (h : readString s = some (value, rest)) : rest.length < s.length := by
  obtain ⟨⟨us, t⟩, read, same⟩ := Option.map_eq_some_iff.mp h
  cases same
  exact length_units read

end Json.Input

namespace Piece

/-- Reads a line of code. Nothing is read if a quote opens what is no JSON string. -/
def read : List Char → Option (List Piece)
  | [] => some []
  | c :: s =>
    if c = '"' then
      match _h : Json.Input.readString s with
      | some (some value, rest) => (read rest).map (literal value :: ·)
      | _ => none
    else (read s).map (code c :: ·)
termination_by s => s.length
decreasing_by
  · exact Nat.lt_succ_of_lt (Json.Input.length_readString _h)
  · exact Nat.lt_succ_self _

theorem read_cons_of_ne {c : Char} (h : c ≠ '"') (s : List Char) :
    read (c :: s) = (read s).map (code c :: ·) := by
  rw [read, if_neg h]

theorem read_quote (value : String) (s : List Char) :
    read ((Json.quote value).toList ++ s) = (read s).map (literal value :: ·) := by
  rw [Json.quote_append, read, if_pos rfl]
  split
  · next value' rest found =>
    rw [Json.readString_quote] at found
    cases found
    rfl
  · next other =>
    exact absurd (Json.readString_quote value s) (other value s)

def ofCode (s : String) : List Piece := s.toList.map code

end Piece

def Plain (s : String) : Prop := ∀ c ∈ s.toList, c ≠ '"' ∧ c ≠ '\n'

instance (s : String) : Decidable (Plain s) :=
  List.decidableBAll (fun c => c ≠ '"' ∧ c ≠ '\n') s.toList

namespace Plain

theorem append {s t : String} (hs : Plain s) (ht : Plain t) : Plain (s ++ t) := by
  intro c hc
  rw [String.toList_append] at hc
  rcases List.mem_append.mp hc with hc | hc
  · exact hs c hc
  · exact ht c hc

theorem toString (n : Nat) : Plain (toString n) := by
  intro c hc
  have digit := Query.isDigit_of_mem_toString hc
  constructor
  · rintro rfl
    cases digit
  · rintro rfl
    cases digit

theorem intercalate {sep : String} {ss : List String} (between : Plain sep)
    (each : ∀ s ∈ ss, Plain s) : Plain (sep.intercalate ss) := by
  induction ss with
  | nil => exact nofun
  | cons s ss ih =>
    have first := each s List.mem_cons_self
    have others := ih fun t ht => each t (List.mem_cons_of_mem s ht)
    cases ss with
    | nil => exact first
    | cons t ss =>
      rw [String.intercalate_cons_cons]
      exact (first.append between).append others

end Plain

/-- Wherever the text stands in a line, it is read as these pieces. -/
structure Spells (s : String) (line : List Piece) : Prop where
  oneLine : '\n' ∉ s.toList
  read : ∀ rest, Piece.read (s.toList ++ rest) = (Piece.read rest).map (line ++ ·)

namespace Spells

theorem code {s : String} (plain : Plain s) : Spells s (Piece.ofCode s) where
  oneLine := fun mem => (plain _ mem).2 rfl
  read := by
    intro rest
    have each : ∀ c ∈ s.toList, c ≠ '"' := fun c hc => (plain c hc).1
    rw [Piece.ofCode]
    generalize s.toList = cs at each ⊢
    induction cs with
    | nil => simp
    | cons c cs ih =>
      have others := ih fun d hd => each d (List.mem_cons_of_mem c hd)
      rw [List.cons_append, Piece.read_cons_of_ne (each c List.mem_cons_self), others,
        Option.map_map]
      rfl

theorem literal (value : String) : Spells (Json.quote value) [.literal value] where
  oneLine := Json.notMem_quote (by decide) value
  read := Piece.read_quote value

theorem append {s t : String} {first last : List Piece} (hs : Spells s first)
    (ht : Spells t last) : Spells (s ++ t) (first ++ last) where
  oneLine := by
    rw [String.toList_append]
    exact fun mem => (List.mem_append.mp mem).elim hs.oneLine ht.oneLine
  read := by
    intro rest
    rw [String.toList_append, List.append_assoc, hs.read, ht.read, Option.map_map]
    simp [Function.comp_def]

end Spells

/-- Wherever the text begins a line, it is read as these lines and goes on with another. -/
def Lays (s : String) (lines : List (List Piece)) : Prop :=
  ∀ rest, (Text.lines (s.toList ++ rest)).map Piece.read =
    lines.map some ++ (Text.lines rest).map Piece.read

namespace Lays

theorem nil : Lays "" [] := fun _ => rfl

theorem line {s : String} {line : List Piece} (h : Spells s line) : Lays (s ++ "\n") [line] := by
  intro rest
  have parted : Text.lines (s.toList ++ '\n' :: rest) = s.toList :: Text.lines rest := by
    rw [Text.lines, Text.splitOn_append, Text.splitOn_of_notMem h.oneLine]
    rfl
  have own : Piece.read s.toList = some line := by
    simpa [Piece.read] using h.read []
  rw [String.toList_append, List.append_assoc]
  change (Text.lines (s.toList ++ '\n' :: rest)).map Piece.read = _
  rw [parted, List.map_cons, own]
  rfl

theorem ofCode (s : String) (plain : Plain s) : Lays (s ++ "\n") [Piece.ofCode s] :=
  line (.code plain)

/-- A line of code with one literal in it. -/
theorem ofLiteral (before after : String) (hb : Plain before) (ha : Plain after)
    (value : String) :
    Lays (before ++ Json.quote value ++ (after ++ "\n"))
      [Piece.ofCode before ++ .literal value :: Piece.ofCode after] := by
  have spelled := ((Spells.code hb).append (.literal value)).append (.code ha)
  rw [List.append_assoc] at spelled
  rw [← String.append_assoc]
  exact line spelled

theorem append {s t : String} {first last : List (List Piece)} (hs : Lays s first)
    (ht : Lays t last) : Lays (s ++ t) (first ++ last) := by
  intro rest
  rw [String.toList_append, List.append_assoc, hs, ht, List.map_append, List.append_assoc]

/-- A text is read as its lines and an empty one, which is that after its last line break. -/
theorem whole {s : String} {lines : List (List Piece)} (h : Lays s lines) :
    (Text.lines s.toList).map Piece.read = (lines ++ [[]]).map some := by
  have after : (Text.lines []).map Piece.read = [some []] := by
    simp [Text.lines, Text.splitOn, Piece.read]
  have all := h []
  rwa [List.append_nil, after, ← List.map_singleton, ← List.map_append] at all

theorem join {α : Type} {f : α → String} {g : α → List (List Piece)} {xs : List α}
    (each : ∀ x ∈ xs, Lays (f x) (g x)) : Lays (String.join (xs.map f)) (xs.flatMap g) := by
  induction xs with
  | nil => exact nil
  | cons x xs ih =>
    rw [List.map_cons, String.join_cons, List.flatMap_cons]
    exact (each x List.mem_cons_self).append (ih fun y hy => each y (List.mem_cons_of_mem x hy))

theorem joinLines {α : Type} {f : α → String} {g : α → List Piece} {xs : List α}
    (each : ∀ x ∈ xs, Lays (f x) [g x]) : Lays (String.join (xs.map f)) (xs.map g) := by
  rw [List.map_eq_flatMap (f := g)]
  exact join each

end Lays

end ComponentLoader
