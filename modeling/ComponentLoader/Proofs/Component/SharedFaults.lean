import ComponentLoader.Proofs.Component.Closing
import ComponentLoader.Proofs.Markup.TagFaults

/-! Faults that are collected in one place. All that is met on the way through a file can be put
into one list, which is emptied at the start tags of blocks: what lies in such a tag
belongs to it, and the rest is forgotten. The faults that are found for a tag are its own all the
same, since no fault in an earlier tag lies as far as where the next token begins. -/
namespace ComponentLoader

open Markup (Dialect Fault Lexeme Tag Token)

namespace Markup

/-- The faults in a tag lie before every later lexeme. -/
theorem fault_before {d : Dialect} {source : String} {before rest : List Lexeme} {l m : Lexeme}
    (cut : d.lexemes source = before ++ l :: rest) {f : Fault} (met : f ∈ l.faults)
    (syntactic : f.kind.isTagSyntax = true) (later : m ∈ rest) :
    f.span.start.offset < m.span.start.offset := by
  have tiles := (lexemesFrom_tile d .data .start [] source.toList rfl rfl).1
  have whole : d.lexemesFrom .data .start source.toList = before ++ l :: rest := cut
  rw [whole, List.map_append, List.map_cons] at tiles
  have follows : l.span.stop.offset ≤ m.span.start.offset :=
    tiles.split.2.2.offset_le_start m.span (List.mem_map_of_mem later)
  obtain ⟨h, -, -, own, further⟩ := exists_head cut
  have past : (h.cursor.read d h.mode).2.2.Past := Cursor.past_read d h.mode rfl
  rcases past with done | passed
  · rw [← further, Head.lexemes_nil done] at later
    cases later
  · rw [← own] at met follows
    exact Nat.lt_of_lt_of_le (passed f met syntactic) follows

/-- What is met while a lexeme is read lies in it. -/
theorem fault_within {d : Dialect} {source : String} {l : Lexeme} (listed : l ∈ d.lexemes source)
    {f : Fault} (met : f ∈ l.faults) : l.span.covers f.span.start.offset = true := by
  obtain ⟨-, first, order, last⟩ := (faithful_of_mem_lexemes listed).faults f met
  simp only [Span.covers, Bool.and_eq_true, decide_eq_true_eq]
  omega

end Markup

namespace Layout

/-- The faults of the lexemes that are passed up to what is left of them. -/
def passed (ls left : List Lexeme) : List Fault :=
  (ls.take (ls.length - left.length)).flatMap (·.faults)

/-- A lexeme with those of the faults that lie in it, both ends included. -/
def gather (found : List Fault) (l : Lexeme) : Lexeme :=
  { l with faults := found.filter fun f => l.span.covers f.span.start.offset }

/-- Reads the top level with one list for all faults. The start tag of a block gathers those that
lie in it of all that were found since the block before, and all of these are forgotten. -/
def scanShared (kinds : BlockKinds) (awaited : List Nat) (index : Nat) (found : List Fault) :
    List Lexeme → Except Halt Layout
  | [] => .ok {}
  | l :: rest =>
    match l.token with
    | .startTag tag =>
      match blockKind? kinds tag with
      | some kind =>
        match _read : readBlock kind tag (gather (found ++ l.faults) l) rest with
        | .error cause => .error (.error cause)
        | .ok (block, after) =>
          (scanShared kinds awaited (index + 1) (passed rest after) after).map fun layout =>
            ⟨block :: layout.blocks, .block index :: layout.nodes⟩
      | none =>
        if tag.opens && awaited.contains l.span.start.offset then
          match _ended : elementEnd? [tag.name] rest with
          | none => .error (.unclosed l.span.start.offset)
          | some (stop, after) =>
            (scanShared kinds awaited index (found ++ l.faults ++ passed rest after) after).map
              (cons (.element tag.name ⟨l.span.start, stop⟩))
        else
          (scanShared kinds awaited index (found ++ l.faults) rest).map
            (cons (.element tag.name l.span))
    | .comment _ =>
      (scanShared kinds awaited index (found ++ l.faults) rest).map (cons (.comment l.span))
    | _ => (scanShared kinds awaited index (found ++ l.faults) rest).map (cons (.text l.span))
termination_by ls => ls.length
decreasing_by
  all_goals simp only [List.length_cons]
  · exact Nat.lt_succ_of_le (length_readBlock_le _read)
  · exact Nat.lt_succ_of_lt (length_elementEnd_lt _ended)
  all_goals exact Nat.lt_succ_self _

/-- Reads the top level with one list for all faults, again without waiting for an element that
turns out never to end. Each time the list is new. -/
def rescanShared (kinds : BlockKinds) (ls : List Lexeme) (awaited : List Nat) :
    Except ComponentError Layout :=
  match scanShared kinds awaited 0 [] ls with
  | .ok layout => .ok layout
  | .error (.error cause) => .error cause
  | .error (.unclosed offset) =>
    if _h : offset ∈ awaited then rescanShared kinds ls (awaited.erase offset)
    else .error .unrecoverable
termination_by awaited.length
decreasing_by
  have := List.length_pos_of_mem _h
  rw [List.length_erase_of_mem _h]
  omega

def readShared (kinds : BlockKinds) (source : String) : Except ComponentError Layout :=
  let ls := Dialect.component.lexemes source
  rescanShared kinds ls (ls.map (·.span.start.offset))

section Scan

variable {kinds : BlockKinds} {awaited : List Nat} {index : Nat} {l : Lexeme}
  {rest after : List Lexeme} {tag : Tag} {kind : BlockKind}

theorem scan_refused {cause : ComponentError} (token : l.token = .startTag tag)
    (found : blockKind? kinds tag = some kind) (failed : readBlock kind tag l rest = .error cause) :
    scan kinds awaited index (l :: rest) = .error (.error cause) := by
  rw [scan]
  simp only [token, found]
  split
  · next h => rw [failed] at h; cases h; rfl
  · next h => rw [failed] at h; cases h

theorem scan_block {b : Block} (token : l.token = .startTag tag)
    (found : blockKind? kinds tag = some kind) (read : readBlock kind tag l rest = .ok (b, after)) :
    scan kinds awaited index (l :: rest) =
      (scan kinds awaited (index + 1) after).map fun layout =>
        ⟨b :: layout.blocks, .block index :: layout.nodes⟩ := by
  rw [scan]
  simp only [token, found]
  split
  · next h => rw [read] at h; cases h
  · next h => rw [read] at h; cases h; rfl

theorem scan_unclosed (token : l.token = .startTag tag) (plain : blockKind? kinds tag = none)
    (waits : (tag.opens && awaited.contains l.span.start.offset) = true)
    (never : elementEnd? [tag.name] rest = none) :
    scan kinds awaited index (l :: rest) = .error (.unclosed l.span.start.offset) := by
  rw [scan]
  simp only [token, plain, if_pos waits]
  split
  · rfl
  · next h => rw [never] at h; cases h

theorem scan_element {stop : Position} (token : l.token = .startTag tag)
    (plain : blockKind? kinds tag = none)
    (waits : (tag.opens && awaited.contains l.span.start.offset) = true)
    (ended : elementEnd? [tag.name] rest = some (stop, after)) :
    scan kinds awaited index (l :: rest) =
      (scan kinds awaited index after).map (cons (.element tag.name ⟨l.span.start, stop⟩)) := by
  rw [scan]
  simp only [token, plain, if_pos waits]
  split
  · next h => rw [ended] at h; cases h
  · next h => rw [ended] at h; cases h; rfl

theorem scan_alone (token : l.token = .startTag tag) (plain : blockKind? kinds tag = none)
    (alone : ¬ (tag.opens && awaited.contains l.span.start.offset) = true) :
    scan kinds awaited index (l :: rest) =
      (scan kinds awaited index rest).map (cons (.element tag.name l.span)) := by
  rw [scan]
  simp only [token, plain, if_neg alone]

theorem scan_comment {content : String} (token : l.token = .comment content) :
    scan kinds awaited index (l :: rest) =
      (scan kinds awaited index rest).map (cons (.comment l.span)) := by
  rw [scan]
  simp only [token]

theorem scan_text (noTag : ∀ tag, l.token ≠ .startTag tag)
    (noComment : ∀ content, l.token ≠ .comment content) :
    scan kinds awaited index (l :: rest) =
      (scan kinds awaited index rest).map (cons (.text l.span)) := by
  rw [scan]
  split
  · next token => exact absurd token (noTag _)
  · next token => exact absurd token (noComment _)
  · rfl

end Scan

theorem passed_append (skipped left : List Lexeme) :
    passed (skipped ++ left) left = skipped.flatMap (·.faults) := by
  rw [passed, List.length_append, Nat.add_sub_cancel, List.take_left]

def FoundBefore (source : String) (found : List Fault) (ls : List Lexeme) : Prop :=
  ∃ before, Dialect.component.lexemes source = before ++ ls ∧ found ⊆ before.flatMap (·.faults)

namespace FoundBefore

variable {source : String} {found : List Fault} {l : Lexeme} {skipped left rest : List Lexeme}

/-- When reading goes on, what it finds is found before what is left. -/
theorem pass (h : FoundBefore source found (l :: (skipped ++ left))) :
    FoundBefore source (found ++ l.faults ++ skipped.flatMap (·.faults)) left := by
  obtain ⟨before, cut, earlier⟩ := h
  refine ⟨before ++ l :: skipped, by rw [cut, List.append_assoc, List.cons_append], ?_⟩
  intro f met
  simp only [List.flatMap_append, List.flatMap_cons, List.mem_append] at met ⊢
  rcases met with (old | own) | later
  · exact .inl (earlier old)
  · exact .inr (.inl own)
  · exact .inr (.inr later)

theorem next (h : FoundBefore source found (l :: rest)) :
    FoundBefore source (found ++ l.faults) rest := by
  have nothing : FoundBefore source found (l :: ([] ++ rest)) := h
  have passed := nothing.pass
  rwa [List.flatMap_nil, List.append_nil] at passed

theorem mono {found' : List Fault} (h : FoundBefore source found left) (less : found' ⊆ found) :
    FoundBefore source found' left := by
  obtain ⟨before, cut, earlier⟩ := h
  exact ⟨before, cut, List.Subset.trans less earlier⟩

/-- Of the faults in tags that were found before a lexeme and in it, those that lie in it are its
own. -/
theorem find_gather (h : FoundBefore source found (l :: rest)) :
    (gather (found ++ l.faults) l).faults.find? (·.kind.isTagSyntax) =
      l.faults.find? (·.kind.isTagSyntax) := by
  obtain ⟨before, cut, earlier⟩ := h
  have own : l.faults.filter (fun f => l.span.covers f.span.start.offset) = l.faults := by
    have listed : l ∈ Dialect.component.lexemes source := by
      rw [cut]
      exact List.mem_append_right before List.mem_cons_self
    exact List.filter_eq_self.mpr fun f met => Markup.fault_within listed met
  have none : (found.filter fun f => l.span.covers f.span.start.offset).find?
      (·.kind.isTagSyntax) = none := by
    refine List.find?_eq_none.mpr fun f kept syntactic => ?_
    obtain ⟨met, covered⟩ := List.mem_filter.mp kept
    obtain ⟨k, listed, met⟩ := List.mem_flatMap.mp (earlier met)
    obtain ⟨a, b, rfl⟩ := List.mem_iff_append.mp listed
    have apart : f.span.start.offset < l.span.start.offset := by
      have cut' : Dialect.component.lexemes source = a ++ k :: (b ++ l :: rest) := by
        rw [cut, List.append_assoc, List.cons_append]
      exact Markup.fault_before cut' met syntactic (List.mem_append_right b List.mem_cons_self)
    simp only [Span.covers, Bool.and_eq_true, decide_eq_true_eq] at covered
    omega
  rw [gather, List.filter_append, own, List.find?_append, none, Option.none_or]

theorem readBlock_gather {kind : BlockKind} {tag : Tag}
    (h : FoundBefore source found (l :: rest)) :
    readBlock kind tag (gather (found ++ l.faults) l) rest = readBlock kind tag l rest := by
  simp only [readBlock, h.find_gather]
  rfl

end FoundBefore

/-- However many faults were found before, each start tag is judged by its own. -/
theorem scanShared_eq {source : String} {found : List Fault} {ls : List Lexeme} (kinds : BlockKinds)
    (awaited : List Nat) (index : Nat) (h : FoundBefore source found ls) :
    scanShared kinds awaited index found ls = scan kinds awaited index ls := by
  fun_induction scanShared kinds awaited index found ls with
  | case1 index found => rw [scan]
  | case2 index found l rest tag token kind recognized cause failed =>
    rw [h.readBlock_gather] at failed
    exact (scan_refused token recognized failed).symm
  | case3 index found l rest tag token kind recognized b after read ih =>
    rw [h.readBlock_gather] at read
    obtain ⟨skipped, rfl⟩ := readBlock_suffix read
    rw [passed_append] at ih ⊢
    rw [scan_block token recognized read, ih (h.pass.mono (List.subset_append_right _ _))]
  | case4 index found l rest tag token plain waits never =>
    exact (scan_unclosed token plain waits never).symm
  | case5 index found l rest tag token plain waits stop after ended ih =>
    obtain ⟨inside, last, rfl, -⟩ := exists_of_elementEnd ended
    have parts : inside ++ last :: after = (inside ++ [last]) ++ after :=
      List.append_cons inside last after
    rw [scan_element token plain waits ended]
    rw [parts] at h
    rw [parts, passed_append] at ih ⊢
    rw [ih h.pass]
  | case6 index found l rest tag token plain alone ih =>
    rw [scan_alone token plain alone, ih h.next]
  | case7 index found l rest content token ih => rw [scan_comment token, ih h.next]
  | case8 index found l rest noTag noComment ih => rw [scan_text noTag noComment, ih h.next]

theorem rescanShared_eq (kinds : BlockKinds) (source : String) (awaited : List Nat) :
    rescanShared kinds (Dialect.component.lexemes source) awaited =
      rescan kinds (Dialect.component.lexemes source) awaited := by
  have fresh : FoundBefore source [] (Dialect.component.lexemes source) :=
    ⟨[], rfl, List.nil_subset _⟩
  have same (awaited : List Nat) := scanShared_eq kinds awaited 0 fresh
  fun_induction rescanShared kinds (Dialect.component.lexemes source) awaited with
  | case1 awaited layout scanned =>
    rw [same] at scanned
    rw [rescan, scanned]
  | case2 awaited cause failed =>
    rw [same] at failed
    rw [rescan, failed]
  | case3 awaited offset stopped listed ih =>
    rw [same] at stopped
    rw [rescan, stopped, ih]
    simp only [dif_pos listed]
  | case4 awaited offset stopped unlisted =>
    rw [same] at stopped
    rw [rescan, stopped]
    simp only [dif_neg unlisted]

/-- With one list for all faults a file is read as with each lexeme's own. -/
theorem readShared_eq (kinds : BlockKinds) (source : String) :
    readShared kinds source = read kinds source :=
  rescanShared_eq kinds source _

end Layout

end ComponentLoader
