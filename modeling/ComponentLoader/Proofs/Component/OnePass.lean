import ComponentLoader.Proofs.Component.BlockEnd
import ComponentLoader.Proofs.Component.Partition

/-! The top level in one pass. An element that is no block is followed by a stack
of open elements to the end tag that leaves none open; where there is no such end
tag the element stands alone. Reading the file again and again, each time without
waiting for one more element, comes to the same layout or error. -/
namespace ComponentLoader

open Markup (Lexeme Tag Token)

def Block.Holds (b : Block) (l : Lexeme) : Prop :=
  b.content.start.offset ≤ l.span.start.offset ∧ l.span.stop.offset ≤ b.content.stop.offset

namespace Layout

variable {kinds : BlockKinds} {awaited : List Nat} {index : Nat} {ls rest after : List Lexeme}
  {layout : Layout} {source : String}

/-- The open elements, innermost first, after one more token. -/
def track (opened : List String) : Token → List String
  | .startTag tag => if tag.opens then tag.name :: opened else opened
  | .endTag name =>
    match opened.findIdx? (Text.sameIgnoringCase · name) with
    | none => opened
    | some inner => opened.drop (inner + 1)
  | _ => opened

/-- The first lexeme that leaves no element open, and what follows it. -/
def emptying? (opened : List String) : List Lexeme → Option (Lexeme × List Lexeme)
  | [] => none
  | l :: rest =>
    if (track opened l.token).isEmpty then some (l, rest)
    else emptying? (track opened l.token) rest

theorem exists_of_emptying {opened : List String} {last : Lexeme}
    (h : emptying? opened ls = some (last, after)) : ∃ inside, ls = inside ++ last :: after := by
  induction ls generalizing opened with
  | nil => cases h
  | cons l ls ih =>
    rw [emptying?] at h
    split at h
    · cases h
      exact ⟨[], rfl⟩
    · obtain ⟨inside, rfl⟩ := ih h
      exact ⟨l :: inside, rfl⟩

theorem emptying_suffix {opened : List String} {last : Lexeme}
    (h : emptying? opened ls = some (last, after)) : after <:+ ls := by
  obtain ⟨inside, rfl⟩ := exists_of_emptying h
  exact ⟨inside ++ [last], by simp⟩

theorem length_emptying_lt {opened : List String} {last : Lexeme}
    (h : emptying? opened ls = some (last, after)) : after.length < ls.length := by
  obtain ⟨inside, rfl⟩ := exists_of_emptying h
  rw [List.length_append, List.length_cons]
  omega

theorem emptying_cons (opened : List String) (l : Lexeme) (rest : List Lexeme) :
    emptying? opened (l :: rest) =
      if track opened l.token = [] then some (l, rest)
      else emptying? (track opened l.token) rest := by
  simp only [emptying?, List.isEmpty_iff]

theorem track_startTag_ne_nil {opened : List String} (h : opened ≠ []) (tag : Tag) :
    track opened (.startTag tag) ≠ [] := by
  rw [track]
  split
  · exact List.cons_ne_nil _ _
  · exact h

/-- While an element is open, only an end tag can leave none open. -/
theorem elementEnd_cons {opened : List String} (h : opened ≠ []) (l : Lexeme)
    (rest : List Lexeme) :
    elementEnd? opened (l :: rest) =
      if track opened l.token = [] then some (l.span.stop, rest)
      else elementEnd? (track opened l.token) rest := by
  rw [elementEnd?]
  cases l.token with
  | startTag tag => exact (if_neg (track_startTag_ne_nil h tag)).symm
  | endTag name =>
    cases found : opened.findIdx? (Text.sameIgnoringCase · name) with
    | none =>
      have same : track opened (.endTag name) = opened := by simp only [track, found]
      simp only [same, found, if_neg h]
    | some inner =>
      have less : track opened (.endTag name) = opened.drop (inner + 1) := by
        simp only [track, found]
      simp only [less, found, List.isEmpty_iff]
  | text content => exact (if_neg h).symm
  | comment content => exact (if_neg h).symm
  | interpolation content => exact (if_neg h).symm

theorem elementEnd_eq {opened : List String} (h : opened ≠ []) (ls : List Lexeme) :
    elementEnd? opened ls =
      (emptying? opened ls).map fun (last, after) => (last.span.stop, after) := by
  induction ls generalizing opened with
  | nil => rfl
  | cons l ls ih =>
    rw [elementEnd_cons h, emptying_cons]
    split
    · rfl
    · next still => exact ih still

def onePass (kinds : BlockKinds) (index : Nat) : List Lexeme → Except ComponentError Layout
  | [] => .ok {}
  | l :: rest =>
    match l.token with
    | .startTag tag =>
      match blockKind? kinds tag with
      | some kind =>
        match _read : readBlock kind tag l rest with
        | .error cause => .error cause
        | .ok (block, after) =>
          (onePass kinds (index + 1) after).map fun layout =>
            ⟨block :: layout.blocks, .block index :: layout.nodes⟩
      | none =>
        match _closed : if tag.opens then emptying? [tag.name] rest else none with
        | some (last, after) =>
          (onePass kinds index after).map (cons (.element tag.name ⟨l.span.start, last.span.stop⟩))
        | none => (onePass kinds index rest).map (cons (.element tag.name l.span))
    | .comment _ => (onePass kinds index rest).map (cons (.comment l.span))
    | _ => (onePass kinds index rest).map (cons (.text l.span))
termination_by ls => ls.length
decreasing_by
  all_goals simp only [List.length_cons]
  · exact Nat.lt_succ_of_le (length_readBlock_le _read)
  · split at _closed
    · exact Nat.lt_succ_of_lt (length_emptying_lt _closed)
    · cases _closed
  all_goals exact Nat.lt_succ_self _

section Pieces

variable {l : Lexeme} {tag : Tag} {kind : BlockKind}

theorem onePass_refused {cause : ComponentError} (token : l.token = .startTag tag)
    (found : blockKind? kinds tag = some kind) (failed : readBlock kind tag l rest = .error cause) :
    onePass kinds index (l :: rest) = .error cause := by
  rw [onePass]
  simp only [token, found]
  split
  · next h => rw [failed] at h; cases h; rfl
  · next h => rw [failed] at h; cases h

theorem onePass_block {b : Block} (token : l.token = .startTag tag)
    (found : blockKind? kinds tag = some kind) (read : readBlock kind tag l rest = .ok (b, after)) :
    onePass kinds index (l :: rest) =
      (onePass kinds (index + 1) after).map fun layout =>
        ⟨b :: layout.blocks, .block index :: layout.nodes⟩ := by
  rw [onePass]
  simp only [token, found]
  split
  · next h => rw [read] at h; cases h
  · next h => rw [read] at h; cases h; rfl

theorem onePass_element {last : Lexeme} (token : l.token = .startTag tag)
    (plain : blockKind? kinds tag = none) (opens : tag.opens = true)
    (closed : emptying? [tag.name] rest = some (last, after)) :
    onePass kinds index (l :: rest) =
      (onePass kinds index after).map
        (cons (.element tag.name ⟨l.span.start, last.span.stop⟩)) := by
  rw [onePass]
  simp only [token, plain]
  split
  · next h => rw [if_pos opens, closed] at h; cases h; rfl
  · next h => rw [if_pos opens, closed] at h; cases h

theorem onePass_alone (token : l.token = .startTag tag) (plain : blockKind? kinds tag = none)
    (alone : tag.opens = true → emptying? [tag.name] rest = none) :
    onePass kinds index (l :: rest) =
      (onePass kinds index rest).map (cons (.element tag.name l.span)) := by
  rw [onePass]
  simp only [token, plain]
  split
  · next h =>
    split at h
    · next opens => rw [alone opens] at h; cases h
    · cases h
  · rfl

theorem onePass_comment {content : String} (token : l.token = .comment content) :
    onePass kinds index (l :: rest) =
      (onePass kinds index rest).map (cons (.comment l.span)) := by
  rw [onePass]
  simp only [token]

theorem onePass_text (noTag : ∀ tag, l.token ≠ .startTag tag)
    (noComment : ∀ content, l.token ≠ .comment content) :
    onePass kinds index (l :: rest) =
      (onePass kinds index rest).map (cons (.text l.span)) := by
  rw [onePass]
  split
  · next token => exact absurd token (noTag _)
  · next token => exact absurd token (noComment _)
  · rfl

end Pieces

/-- What is not waited for any more turned out never to end. -/
def Settled (awaited : List Nat) (ls : List Lexeme) : Prop :=
  ∀ l rest tag, l :: rest <:+ ls → l.token = .startTag tag → l.span.start.offset ∉ awaited →
    emptying? [tag.name] rest = none

/-- An element that is waited for never ends. -/
def Endless (awaited : List Nat) (ls : List Lexeme) (offset : Nat) : Prop :=
  offset ∈ awaited ∧ ∃ l rest tag, l :: rest <:+ ls ∧ l.token = .startTag tag ∧
    l.span.start.offset = offset ∧ emptying? [tag.name] rest = none

theorem Settled.of_suffix {ls' : List Lexeme} (h : Settled awaited ls) (tail : ls' <:+ ls) :
    Settled awaited ls' :=
  fun l rest tag inside => h l rest tag (inside.trans tail)

theorem Endless.of_suffix {ls' : List Lexeme} {offset : Nat} (h : Endless awaited ls' offset)
    (tail : ls' <:+ ls) : Endless awaited ls offset := by
  obtain ⟨listed, l, rest, tag, inside, found⟩ := h
  exact ⟨listed, l, rest, tag, inside.trans tail, found⟩

theorem readBlock_suffix {kind : BlockKind} {tag : Tag} {l : Lexeme} {b : Block}
    (h : readBlock kind tag l rest = .ok (b, after)) : after <:+ rest := by
  rcases readBlock_cases h with ⟨-, -, rfl⟩ | ⟨inside, m, rfl, -, -⟩
  · exact List.suffix_refl _
  · exact ⟨inside ++ [m], by simp⟩

/-- What a reading that waits for some elements comes to: the outcome of the one pass, or a stop at
an element that never ends. -/
def Agrees (awaited : List Nat) (ls : List Lexeme) (waiting : Except Halt Layout)
    (once : Except ComponentError Layout) : Prop :=
  waiting = once.mapError .error ∨
    ∃ offset, waiting = .error (.unclosed offset) ∧ Endless awaited ls offset

theorem Agrees.map {ls' : List Lexeme} {waiting : Except Halt Layout}
    {once : Except ComponentError Layout} (h : Agrees awaited ls' waiting once)
    (tail : ls' <:+ ls) (f : Layout → Layout) :
    Agrees awaited ls (waiting.map f) (once.map f) := by
  rcases h with rfl | ⟨offset, rfl, endless⟩
  · left
    cases once <;> rfl
  · exact .inr ⟨offset, rfl, endless.of_suffix tail⟩

theorem agrees_of_settled (kinds : BlockKinds) (index : Nat) (settled : Settled awaited ls) :
    Agrees awaited ls (scan kinds awaited index ls) (onePass kinds index ls) := by
  fun_induction scan kinds awaited index ls with
  | case1 index =>
    rw [onePass]
    exact .inl rfl
  | case2 index l rest tag token kind found cause failed =>
    rw [onePass_refused token found failed]
    exact .inl rfl
  | case3 index l rest tag token kind found b after read ih =>
    rw [onePass_block token found read]
    have tail := (readBlock_suffix read).trans (List.suffix_cons l rest)
    exact (ih (settled.of_suffix tail)).map tail _
  | case4 index l rest tag token plain waits never =>
    simp only [Bool.and_eq_true, List.contains_iff_mem] at waits
    rw [elementEnd_eq (List.cons_ne_nil _ _), Option.map_eq_none_iff] at never
    exact .inr ⟨_, rfl, waits.2, l, rest, tag, List.suffix_refl _, token, rfl, never⟩
  | case5 index l rest tag token plain waits stop after ended ih =>
    simp only [Bool.and_eq_true, List.contains_iff_mem] at waits
    rw [elementEnd_eq (List.cons_ne_nil _ _), Option.map_eq_some_iff] at ended
    obtain ⟨⟨last, after⟩, closed, same⟩ := ended
    cases same
    rw [onePass_element token plain waits.1 closed]
    obtain ⟨inside, rfl⟩ := exists_of_emptying closed
    have tail : after <:+ l :: (inside ++ last :: after) := ⟨l :: (inside ++ [last]), by simp⟩
    exact (ih (settled.of_suffix tail)).map tail _
  | case6 index l rest tag token plain alone ih =>
    have endless (opens : tag.opens = true) : emptying? [tag.name] rest = none := by
      refine settled l rest tag (List.suffix_refl _) token ?_
      simpa [opens] using alone
    rw [onePass_alone token plain endless]
    have tail := List.suffix_cons l rest
    exact (ih (settled.of_suffix tail)).map tail _
  | case7 index l rest content token ih =>
    rw [onePass_comment token]
    have tail := List.suffix_cons l rest
    exact (ih (settled.of_suffix tail)).map tail _
  | case8 index l rest noTag noComment ih =>
    rw [onePass_text noTag noComment]
    have tail := List.suffix_cons l rest
    exact (ih (settled.of_suffix tail)).map tail _

def Ordered (ls : List Lexeme) : Prop :=
  ls.Pairwise fun l m => l.span.start.offset < m.span.start.offset

theorem ordered_of_tiles {p q : Position} (h : Span.Tiles p (ls.map (·.span)) q) : Ordered ls := by
  have ordered := h.ordered
  rwa [List.pairwise_map] at ordered

theorem ordered_lexemes (source : String) : Ordered (Markup.Dialect.component.lexemes source) :=
  ordered_of_tiles (Markup.lexemesFrom_tile .component .data .start [] source.toList rfl rfl).1

/-- What follows a lexeme is told by where it begins. -/
theorem Ordered.suffix_unique {l m : Lexeme} {rest rest' : List Lexeme} (h : Ordered ls)
    (hl : l :: rest <:+ ls) (hm : m :: rest' <:+ ls)
    (same : l.span.start.offset = m.span.start.offset) : l :: rest = m :: rest' := by
  have apart {a b : Lexeme} {r s : List Lexeme} (inside : a :: r <:+ b :: s)
      (whole : b :: s <:+ ls) (same : a.span.start.offset = b.span.start.offset) :
      a :: r = b :: s := by
    rcases List.suffix_cons_iff.mp inside with equal | later
    · exact equal
    · have before := (List.pairwise_cons.mp (h.sublist whole.sublist)).1 a
        (later.subset List.mem_cons_self)
      omega
  rcases List.suffix_or_suffix_of_suffix hl hm with inside | inside
  · exact apart inside hm same
  · exact (apart inside hl same.symm).symm

/-- An element that was found never to end need not be waited for. -/
theorem Settled.erase {offset : Nat} (h : Settled awaited ls) (ordered : Ordered ls)
    (endless : Endless awaited ls offset) : Settled (awaited.erase offset) ls := by
  obtain ⟨-, m, rest', tag', hm, token', begins, never⟩ := endless
  intro l rest tag hl token dropped
  by_cases listed : l.span.start.offset ∈ awaited
  · have same : l.span.start.offset = offset := by
      apply Classical.byContradiction
      intro different
      exact dropped ((List.mem_erase_of_ne different).mpr listed)
    cases ordered.suffix_unique hl hm (same.trans begins.symm)
    rw [token] at token'
    cases token'
    exact never
  · exact h l rest tag hl token listed

theorem Agrees.of_ok {once : Except ComponentError Layout}
    (h : Agrees awaited ls (.ok layout) once) : once = .ok layout := by
  rcases h with same | ⟨offset, stopped, -⟩
  · cases once <;> cases same
    rfl
  · cases stopped

theorem Agrees.of_error {once : Except ComponentError Layout} {cause : ComponentError}
    (h : Agrees awaited ls (.error (.error cause)) once) : once = .error cause := by
  rcases h with same | ⟨offset, stopped, -⟩
  · cases once <;> cases same
    rfl
  · cases stopped

theorem Agrees.of_unclosed {once : Except ComponentError Layout} {offset : Nat}
    (h : Agrees awaited ls (.error (.unclosed offset)) once) : Endless awaited ls offset := by
  rcases h with same | ⟨offset', stopped, endless⟩
  · cases once <;> cases same
  · cases stopped
    exact endless

/-- However many elements are still waited for, reading again comes to the outcome of the one
pass. -/
theorem rescan_eq_onePass (ordered : Ordered ls) (settled : Settled awaited ls) :
    rescan kinds ls awaited = onePass kinds 0 ls := by
  fun_induction rescan kinds ls awaited with
  | case1 awaited layout scanned =>
    have agrees := agrees_of_settled kinds 0 settled
    rw [scanned] at agrees
    exact agrees.of_ok.symm
  | case2 awaited cause failed =>
    have agrees := agrees_of_settled kinds 0 settled
    rw [failed] at agrees
    exact agrees.of_error.symm
  | case3 awaited offset stopped listed ih =>
    have agrees := agrees_of_settled kinds 0 settled
    rw [stopped] at agrees
    exact ih (settled.erase ordered agrees.of_unclosed)
  | case4 awaited offset stopped unlisted =>
    have agrees := agrees_of_settled kinds 0 settled
    rw [stopped] at agrees
    exact absurd agrees.of_unclosed.1 unlisted

/-- Reading any lexemes in the order of the text again and again comes to the one pass. -/
theorem rescan_all_eq_onePass (ordered : Ordered ls) :
    rescan kinds ls (ls.map (·.span.start.offset)) = onePass kinds 0 ls := by
  refine rescan_eq_onePass ordered ?_
  intro l rest tag inside token unlisted
  exact absurd (List.mem_map_of_mem (inside.subset List.mem_cons_self)) unlisted

theorem read_eq_onePass (kinds : BlockKinds) (source : String) :
    read kinds source = onePass kinds 0 (Markup.Dialect.component.lexemes source) :=
  rescan_all_eq_onePass (ordered_lexemes source)

/-- One pass fails at the start tag of a block only. -/
theorem cause_of_onePass {cause : ComponentError} (h : onePass kinds index ls = .error cause) :
    (∃ name fault, cause = .malformedTag name fault) ∨
      ∃ name span, cause = .unclosedBlock name span := by
  have through {f : Layout → Layout} {once : Except ComponentError Layout}
      (h : once.map f = .error cause) : once = .error cause := by
    cases once <;> cases h
    rfl
  fun_induction onePass kinds index ls with
  | case1 index => cases h
  | case2 index l rest tag token kind found cause' failed =>
    cases h
    rcases cause_of_readBlock failed with ⟨f, -, rfl⟩ | rfl
    · exact .inl ⟨_, _, rfl⟩
    · exact .inr ⟨_, _, rfl⟩
  | case3 index l rest tag token kind found b after read ih => exact ih (through h)
  | case4 index l rest tag token plain last after closed ih => exact ih (through h)
  | case5 index l rest tag token plain alone ih => exact ih (through h)
  | case6 index l rest content token ih => exact ih (through h)
  | case7 index l rest noTag noComment ih => exact ih (through h)

/-- The piece is an element with an end tag among the lexemes, and holds one of them. -/
def Encloses (ls : List Lexeme) (node : LayoutNode) (l : Lexeme) : Prop :=
  ∃ first tag inside last after, first :: (inside ++ last :: after) <:+ ls ∧
    first.token = .startTag tag ∧ tag.opens = true ∧
    emptying? [tag.name] (inside ++ last :: after) = some (last, after) ∧
    node = .element tag.name ⟨first.span.start, last.span.stop⟩ ∧ l ∈ inside

theorem Encloses.of_suffix {ls' : List Lexeme} {node : LayoutNode} {l : Lexeme}
    (h : Encloses ls' node l) (tail : ls' <:+ ls) : Encloses ls node l := by
  obtain ⟨first, tag, inside, last, after, whole, others⟩ := h
  exact ⟨first, tag, inside, last, after, whole.trans tail, others⟩

/-- An element is ended by an end tag. -/
theorem endTag_of_emptying {opened : List String} {last : Lexeme} (h : opened ≠ [])
    (closed : emptying? opened ls = some (last, after)) : ∃ name, last.token = .endTag name := by
  induction ls generalizing opened with
  | nil => cases closed
  | cons l ls ih =>
    rw [emptying_cons] at closed
    split at closed
    · next empty =>
      cases closed
      cases token : last.token with
      | endTag name => exact ⟨name, rfl⟩
      | startTag tag =>
        rw [token] at empty
        exact absurd empty (track_startTag_ne_nil h tag)
      | text content => exact absurd (by rwa [token] at empty) h
      | comment content => exact absurd (by rwa [token] at empty) h
      | interpolation content => exact absurd (by rwa [token] at empty) h
    · next still => exact ih still closed

/-- A start tag of the kinds that are looked for begins a block, lies in one, or lies in an element
with an end tag. -/
def Placed (ls : List Lexeme) (layout : Layout) (kind : BlockKind) (l : Lexeme) : Prop :=
  (∃ b ∈ layout.blocks, b.kind = kind ∧ b.span.start = l.span.start) ∨
    (∃ b ∈ layout.blocks, b.Holds l) ∨ ∃ node ∈ layout.nodes, Encloses ls node l

theorem Placed.mono {ls' : List Lexeme} {layout' : Layout} {kind : BlockKind} {l : Lexeme}
    (h : Placed ls' layout' kind l) (tail : ls' <:+ ls) (blocks : layout'.blocks ⊆ layout.blocks)
    (nodes : layout'.nodes ⊆ layout.nodes) : Placed ls layout kind l := by
  rcases h with ⟨b, listed, own⟩ | ⟨b, listed, held⟩ | ⟨node, listed, enclosed⟩
  · exact .inl ⟨b, blocks listed, own⟩
  · exact .inr (.inl ⟨b, blocks listed, held⟩)
  · exact .inr (.inr ⟨node, nodes listed, enclosed.of_suffix tail⟩)

/-- A start tag after that of a block lies in the block, or after it. -/
theorem holds_or_mem_after {kind : BlockKind} {tag tag' : Tag} {first l : Lexeme} {b : Block}
    {q : Position} (read : readBlock kind tag first rest = .ok (b, after))
    (tiles : Span.Tiles first.span.stop (rest.map (·.span)) q) (listed : l ∈ rest)
    (token : l.token = .startTag tag') : b.Holds l ∨ l ∈ after := by
  obtain ⟨-, -, -, -, ⟨-, -, -, rfl⟩ | ⟨-, inside, m, rfl, closes, -, content⟩⟩ :=
    readBlock_inversion read
  · exact .inr listed
  · rcases List.mem_append.mp listed with within | listed
    · obtain ⟨x, y, rfl⟩ := List.mem_iff_append.mp within
      simp only [List.map_append, List.map_cons, List.append_assoc, List.cons_append] at tiles
      obtain ⟨lower, -, further⟩ := tiles.split
      left
      rw [Block.Holds, content]
      exact ⟨lower, further.split.1⟩
    · rcases List.mem_cons.mp listed with rfl | later
      · obtain ⟨n, ending, -⟩ := Markup.Lexeme.exists_of_ends closes.ends
        rw [token] at ending
        cases ending
      · exact .inr later

/-- A start tag after that of an element lies in the element, or after it. -/
theorem mem_inside_or_after {opened : List String} {inside : List Lexeme} {last l : Lexeme}
    {tag : Tag} (nonempty : opened ≠ [])
    (closed : emptying? opened (inside ++ last :: after) = some (last, after))
    (listed : l ∈ inside ++ last :: after) (token : l.token = .startTag tag) :
    l ∈ inside ∨ l ∈ after := by
  rcases List.mem_append.mp listed with within | listed
  · exact .inl within
  · rcases List.mem_cons.mp listed with rfl | later
    · obtain ⟨n, ending⟩ := endTag_of_emptying nonempty closed
      rw [token] at ending
      cases ending
    · exact .inr later

theorem Laid.startTag_placed (h : Laid kinds awaited index ls layout) {p q : Position}
    (tiles : Span.Tiles p (ls.map (·.span)) q) {l : Lexeme} {tag : Tag} {kind : BlockKind}
    (listed : l ∈ ls) (token : l.token = .startTag tag) (found : blockKind? kinds tag = some kind) :
    Placed ls layout kind l := by
  induction h generalizing p with
  | done index => cases listed
  | @block index first rest after tag' kind' b inner token' found' read more ih =>
    have tail := readBlock_suffix read
    obtain ⟨rfl, -, further⟩ := tiles
    rcases List.mem_cons.mp listed with rfl | listed
    · rw [token] at token'
      cases token'
      rw [found] at found'
      cases found'
      exact .inl ⟨b, List.mem_cons_self, (readBlock_inversion read).2.1,
        (start_of_readBlock read).1⟩
    · rcases holds_or_mem_after read further listed token with held | listed
      · exact .inr (.inl ⟨b, List.mem_cons_self, held⟩)
      · obtain ⟨r, tiles⟩ := further.of_suffix (tail.map (·.span))
        exact (ih tiles listed).mono (tail.trans (List.suffix_cons first rest))
          (List.subset_cons_self _ _) (List.subset_cons_self _ _)
  | @element index first rest after tag' stop inner token' plain waits ended more ih =>
    rw [elementEnd_eq (List.cons_ne_nil _ _), Option.map_eq_some_iff] at ended
    obtain ⟨⟨last, after⟩, closed, same⟩ := ended
    cases same
    have tail := (emptying_suffix closed).trans (List.suffix_cons first rest)
    obtain ⟨inside, rfl⟩ := exists_of_emptying closed
    simp only [Bool.and_eq_true] at waits
    rcases List.mem_cons.mp listed with rfl | listed
    · rw [token] at token'
      cases token'
      rw [found] at plain
      cases plain
    · rcases mem_inside_or_after (List.cons_ne_nil _ _) closed listed token with within | listed
      · exact .inr (.inr ⟨_, List.mem_cons_self, first, tag', inside, last, after,
          List.suffix_refl _, token', waits.1, closed, rfl, within⟩)
      · obtain ⟨r, tiles⟩ := tiles.of_suffix (tail.map (·.span))
        exact (ih tiles listed).mono tail (List.Subset.refl _) (List.subset_cons_self _ _)
  | @tag index first rest tag' inner token' plain alone more ih =>
    rcases List.mem_cons.mp listed with rfl | listed
    · rw [token] at token'
      cases token'
      rw [found] at plain
      cases plain
    · exact (ih tiles.2.2 listed).mono (List.suffix_cons first rest) (List.Subset.refl _)
        (List.subset_cons_self _ _)
  | @comment index first rest content inner token' more ih =>
    rcases List.mem_cons.mp listed with rfl | listed
    · rw [token] at token'
      cases token'
    · exact (ih tiles.2.2 listed).mono (List.suffix_cons first rest) (List.Subset.refl _)
        (List.subset_cons_self _ _)
  | @text index first rest inner noTag noComment more ih =>
    rcases List.mem_cons.mp listed with rfl | listed
    · exact absurd token (noTag tag)
    · exact (ih tiles.2.2 listed).mono (List.suffix_cons first rest) (List.Subset.refl _)
        (List.subset_cons_self _ _)

/-- A file is laid out as one pass over its lexemes lays it out, with the same blocks and pieces or
the same error, and no element is ever found open a second time. In a layout every start tag of the
kinds that are looked for begins a block, or lies in one or in an element that has an end tag. -/
theorem read_in_one_pass (kinds : BlockKinds) (source : String) :
    read kinds source = onePass kinds 0 (Markup.Dialect.component.lexemes source) ∧
      read kinds source ≠ .error .unrecoverable ∧
      ∀ layout, read kinds source = .ok layout →
        ∀ l ∈ Markup.Dialect.component.lexemes source, ∀ tag kind, l.token = .startTag tag →
          blockKind? kinds tag = some kind →
          Placed (Markup.Dialect.component.lexemes source) layout kind l := by
  refine ⟨read_eq_onePass kinds source, ?_, ?_⟩
  · intro stuck
    rw [read_eq_onePass] at stuck
    rcases cause_of_onePass stuck with ⟨name, fault, same⟩ | ⟨name, span, same⟩ <;> cases same
  · intro layout found l listed tag kind token recognized
    obtain ⟨awaited, laid⟩ := laid_of_read found
    have tiles := (Markup.lexemesFrom_tile .component .data .start [] source.toList rfl rfl).1
    exact laid.startTag_placed tiles listed token recognized

end Layout

end ComponentLoader
