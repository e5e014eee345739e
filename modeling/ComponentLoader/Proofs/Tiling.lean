import ComponentLoader.Position

/-! Places of a text and stretches that cover it. A list of stretches tiles the
way from one place to another when each begins where the one before it ends and
none is empty; the texts that they cover then join to the text in between. -/
namespace ComponentLoader

namespace Text

theorem utf8Length_eq_zero_iff {s : List Char} : utf8Length s = 0 ↔ s = [] := by
  cases s with
  | nil => simp [utf8Length]
  | cons c s =>
    have := Char.utf8Size_pos c
    simp only [utf8Length, reduceCtorEq, iff_false]
    omega

/-- Of two ways to divide a text, the one that divides it earlier in bytes has
the shorter first part. -/
theorem exists_eq_append_of_utf8Length_le {a b c d : List Char} (same : a ++ b = c ++ d)
    (h : utf8Length a ≤ utf8Length c) : ∃ t, c = a ++ t := by
  rcases List.append_eq_append_iff.mp same with ⟨t, hc, -⟩ | ⟨t, ha, -⟩
  · exact ⟨t, hc⟩
  · rw [ha, utf8Length_append] at h
    have : t = [] := utf8Length_eq_zero_iff.mp (by omega)
    exact ⟨[], by simp [ha, this]⟩

/-- A text is divided in one way at a number of bytes. -/
theorem eq_of_utf8Length_eq {a b c d : List Char} (same : a ++ b = c ++ d)
    (h : utf8Length a = utf8Length c) : a = c := by
  obtain ⟨t, rfl⟩ := exists_eq_append_of_utf8Length_le same (Nat.le_of_eq h)
  rw [utf8Length_append] at h
  have : t = [] := utf8Length_eq_zero_iff.mp (by omega)
  simp [this]

/-- What is taken and what is dropped make up the text, even where a character is
cut. -/
theorem takeBytes_append_dropBytes (n : Nat) (s : List Char) :
    takeBytes n s ++ dropBytes n s = s := by
  induction s generalizing n with
  | nil => cases n <;> rfl
  | cons c s ih =>
    cases n with
    | zero => rfl
    | succ n => rw [takeBytes, dropBytes, List.cons_append, ih]

end Text

namespace Position

/-- The place lies in the text: it is where the text up to some character
ends. -/
def In (source : String) (p : Position) : Prop :=
  ∃ before after, source.toList = before ++ after ∧ p = start.advance before

theorem start_in (source : String) : start.In source := ⟨[], source.toList, rfl, rfl⟩

theorem offset_start_advance (s : List Char) : (start.advance s).offset = Text.utf8Length s := by
  simp [offset_advance, start]

/-- A place of a text is in what follows an earlier one, or where that begins. -/
theorem In.after {source : String} {q : Position} (hq : q.In source) {a rest : List Char}
    (parts : source.toList = a ++ rest) (h : (start.advance a).offset ≤ q.offset) :
    ∃ t b, rest = t ++ b ∧ q = start.advance (a ++ t) := by
  obtain ⟨c, b, hc, rfl⟩ := hq
  simp only [offset_start_advance] at h
  obtain ⟨t, rfl⟩ := Text.exists_eq_append_of_utf8Length_le (parts.symm.trans hc) h
  rw [parts, List.append_assoc] at hc
  exact ⟨t, b, List.append_cancel_left hc, rfl⟩

/-- Two places of a text have a text between them. -/
theorem In.between {source : String} {p q : Position} (hp : p.In source) (hq : q.In source)
    (h : p.offset ≤ q.offset) : ∃ a t b, source.toList = a ++ t ++ b ∧
      p = start.advance a ∧ q = start.advance (a ++ t) := by
  obtain ⟨a, rest, parts, rfl⟩ := hp
  obtain ⟨t, b, rfl, rfl⟩ := hq.after parts h
  exact ⟨a, t, b, by rw [parts, List.append_assoc], rfl, rfl⟩

end Position

namespace Span

def In (source : String) (s : Span) : Prop := s.start.In source ∧ s.stop.In source

/-- The stretches follow each other from `p` to `q`, and none is empty. -/
def Tiles : Position → List Span → Position → Prop
  | p, [], q => p = q
  | p, s :: rest, q => s.start = p ∧ s.start.offset < s.stop.offset ∧ Tiles s.stop rest q

/-- Each of the stretches takes some of the way. -/
theorem Tiles.length_le {p q : Position} {spans : List Span} (h : Tiles p spans q) :
    p.offset + spans.length ≤ q.offset := by
  induction spans generalizing p with
  | nil => exact Nat.le_of_eq (congrArg Position.offset h)
  | cons s rest ih =>
    obtain ⟨rfl, positive, tail⟩ := h
    have := ih tail
    rw [List.length_cons]
    omega

theorem Tiles.offset_le {p q : Position} {spans : List Span} (h : Tiles p spans q) :
    p.offset ≤ q.offset :=
  Nat.le_trans (Nat.le_add_right _ _) h.length_le

/-- Nothing tiles only the way from a place to itself. -/
theorem Tiles.eq_nil_iff {p q : Position} {spans : List Span} (h : Tiles p spans q) :
    spans = [] ↔ p.offset = q.offset := by
  cases spans with
  | nil => simp [show p = q from h]
  | cons s rest =>
    obtain ⟨rfl, positive, tail⟩ := h
    have := tail.offset_le
    simp only [reduceCtorEq, false_iff]
    omega

theorem Tiles.offset_le_start {p q : Position} {spans : List Span} (h : Tiles p spans q) :
    ∀ s ∈ spans, p.offset ≤ s.start.offset := by
  induction spans generalizing p with
  | nil => nofun
  | cons s rest ih =>
    obtain ⟨rfl, positive, tail⟩ := h
    intro t ht
    rcases List.mem_cons.mp ht with rfl | later
    · exact Nat.le_refl _
    · exact Nat.le_trans (Nat.le_of_lt positive) (ih tail t later)

/-- No two of the stretches begin at one place. -/
theorem Tiles.ordered {p q : Position} {spans : List Span} (h : Tiles p spans q) :
    spans.Pairwise fun s t => s.start.offset < t.start.offset := by
  induction spans generalizing p with
  | nil => exact .nil
  | cons s rest ih =>
    obtain ⟨rfl, positive, tail⟩ := h
    refine List.pairwise_cons.mpr ⟨fun t ht => ?_, ih tail⟩
    exact Nat.lt_of_lt_of_le positive (tail.offset_le_start t ht)

theorem text_of_parts {source : String} {a t b : List Char} (h : source.toList = a ++ t ++ b) :
    (Span.mk (Position.start.advance a) (Position.start.advance (a ++ t))).text source =
      String.ofList t := by
  simp only [Span.text, Text.slice, Position.offset_start_advance, h, Text.utf8Length_append,
    Nat.add_sub_cancel_left, List.append_assoc, Text.dropBytes_append, Text.takeBytes_append]

theorem text_append {source : String} {p q r : Position} (hp : p.In source) (hq : q.In source)
    (hr : r.In source) (first : p.offset ≤ q.offset) (last : q.offset ≤ r.offset) :
    (Span.mk p q).text source ++ (Span.mk q r).text source = (Span.mk p r).text source := by
  obtain ⟨a, t, b, hs, rfl, rfl⟩ := hp.between hq first
  obtain ⟨u, v, w, hu, hqu, rfl⟩ := hq.between hr last
  have lengths := congrArg Position.offset hqu
  simp only [Position.offset_start_advance] at lengths
  have parts : (a ++ t) ++ b = u ++ (v ++ w) := by rw [← hs, hu, List.append_assoc]
  obtain rfl := Text.eq_of_utf8Length_eq parts lengths
  rw [text_of_parts hs, text_of_parts hu, List.append_assoc a t v,
    text_of_parts (t := t ++ v) (b := w) (by simp [hu]), String.ofList_append]

theorem text_whole (source : String) :
    (Span.mk .start (Position.start.advance source.toList)).text source = source := by
  have whole : source.toList = [] ++ source.toList ++ [] := by simp
  simpa using text_of_parts whole

theorem Tiles.stop_in {source : String} {p q : Position} {spans : List Span}
    (h : Tiles p spans q) (ends : ∀ s ∈ spans, s.In source) (hp : p.In source) : q.In source := by
  induction spans generalizing p with
  | nil =>
    obtain rfl : p = q := h
    exact hp
  | cons s rest ih => exact ih h.2.2 (fun t ht => ends t (by simp [ht])) (ends s (by simp)).2

/-- The texts of stretches that tile a way join to the text on it. -/
theorem Tiles.join_text {source : String} {p q : Position} {spans : List Span}
    (h : Tiles p spans q) (ends : ∀ s ∈ spans, s.In source) (hp : p.In source) :
    String.join (spans.map (·.text source)) = (Span.mk p q).text source := by
  induction spans generalizing p with
  | nil =>
    obtain rfl : p = q := h
    simp [Span.text, Text.slice, Text.takeBytes]
  | cons s rest ih =>
    have hq := h.stop_in ends hp
    obtain ⟨rfl, positive, tail⟩ := h
    have hs := ends s (by simp)
    rw [List.map_cons, String.join_cons, ih tail (fun t ht => ends t (by simp [ht])) hs.2]
    exact text_append hs.1 hs.2 hq (Nat.le_of_lt positive) tail.offset_le

end Span

end ComponentLoader
