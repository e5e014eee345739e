import ComponentLoader.Proofs.Markup.Tails

/-! Where the faults in tags are. Only tags have them, and reading moves over a bracket or a
solidus after the last of them, unless the text ends in the tag. So each of them lies before
whatever is read next. -/
namespace ComponentLoader.Markup.Cursor

variable {c : Cursor}

/-- Reading has gone on from all faults in tags that were met, or has come to the end. -/
def Past (c : Cursor) : Prop :=
  c.rest = [] ∨ ∀ f ∈ c.faults, f.kind.isTagSyntax = true → f.span.start.offset < c.position.offset

theorem past_of_tagFaults (none : c.tagFaults = []) : c.Past := by
  refine .inr fun f met syntactic => ?_
  have listed : f.kind ∈ c.tagFaults :=
    List.mem_filter.mpr ⟨List.mem_map_of_mem met, syntactic⟩
  rw [none] at listed
  cases listed

theorem Past.report (past : c.Past) {kind : FaultKind} (plain : kind.isTagSyntax = false) :
    (c.report kind).Past := by
  refine past.imp_right fun before => ?_
  intro f met syntactic
  rcases List.mem_append.mp met with earlier | own
  · exact before f earlier syntactic
  · obtain rfl := List.mem_singleton.mp own
    rw [plain] at syntactic
    cases syntactic

theorem Past.reportIf (past : c.Past) (b : Bool) {kind : FaultKind}
    (plain : kind.isTagSyntax = false) : (c.reportIf b kind).Past := by
  unfold Cursor.reportIf
  split
  · exact past.report plain
  · exact past

/-- A move forward goes on from all faults that were met on the way. -/
theorem Reaches.past_skip {c' : Cursor} (way : c.Reaches c') (fresh : c.faults = []) {n : Nat}
    (positive : 0 < n) (more : c'.rest ≠ []) : (c'.skip n).Past := by
  refine .inr fun f met _ => ?_
  obtain ⟨faults, same, places⟩ := way.faults
  have listed : f ∈ faults := by
    rw [fresh, List.nil_append] at same
    exact same ▸ met
  obtain ⟨p, passed, point⟩ := places f listed
  have taken : 0 < Text.utf8Length (c'.rest.take n) := by
    refine Nat.pos_of_ne_zero fun empty => ?_
    rcases List.take_eq_nil_iff.mp (Text.utf8Length_eq_zero_iff.mp empty) with zero | done
    · omega
    · exact more done
  have reached : f.span.start.offset ≤ c'.position.offset := by
    rw [point]
    exact passed.offset_le way
  show _ < (c'.position.advance (c'.rest.take n)).offset
  rw [Position.offset_advance]
  omega

theorem past_readTag (fresh : c.faults = []) : c.readTag.2.Past := by
  have way := reaches_tagEnd c
  rcases readTag_cases c with ⟨done, read⟩ | ⟨r, closed, read⟩ | ⟨r, closed, read⟩
  · rw [read]
    exact .inl done
  · rw [read]
    exact way.past_skip fresh Nat.two_pos (by rw [closed]; exact List.cons_ne_nil _ _)
  · rw [read]
    exact way.past_skip fresh Nat.one_pos (by rw [closed]; exact List.cons_ne_nil _ _)

theorem past_readEndTagOpen (fresh : c.faults = []) : c.readEndTagOpen.2.Past := by
  have none : c.tagFaults = [] := by rw [tagFaults, fresh]; rfl
  unfold readEndTagOpen
  split
  · exact past_of_tagFaults ((tagFaults_report c rfl).trans none)
  · exact past_of_tagFaults ((tagFaults_report c rfl).trans none)
  · split
    · have read : (c.skip 2).readTag.2.Past := past_readTag fresh
      exact (read.reportIf _ rfl).reportIf _ rfl
    · exact past_of_tagFaults ((tagFaults_report c rfl).trans none)

theorem tagFaults_readDeclaration (c : Cursor) :
    c.readDeclaration.2.tagFaults = c.tagFaults := by
  rcases readDeclaration_cases c with ⟨-, comment⟩ | ⟨-, -, same⟩
  · rw [comment, tagFaults_readComment]
  · exact same

theorem past_readMarkup (d : Dialect) (fresh : c.faults = []) : (c.readMarkup d).2.2.Past := by
  have none : c.tagFaults = [] := by rw [tagFaults, fresh]; rfl
  unfold readMarkup
  split
  · exact past_readEndTagOpen fresh
  · exact past_of_tagFaults ((tagFaults_readDeclaration c).trans none)
  · exact past_of_tagFaults ((tagFaults_report c rfl).trans none)
  · split
    · have read : (c.skip 1).readTag.2.Past := past_readTag fresh
      exact read
    · exact past_of_tagFaults ((tagFaults_report c rfl).trans none)
  · exact past_of_tagFaults ((tagFaults_report c rfl).trans none)

theorem tagFaults_readInterpolation (c : Cursor) (d : Delimiters) :
    (c.readInterpolation d).2.tagFaults = c.tagFaults := by
  unfold readInterpolation
  dsimp only
  split
  · rfl
  · exact tagFaults_report _ rfl

theorem past_readData (d : Dialect) (fresh : c.faults = []) : (c.readData d).2.2.Past := by
  have none : c.tagFaults = [] := by rw [tagFaults, fresh]; rfl
  unfold readData
  dsimp only
  split
  · exact past_of_tagFaults none
  · split
    · exact past_of_tagFaults ((tagFaults_readInterpolation c _).trans none)
    · split
      · exact past_readMarkup d fresh
      · exact past_of_tagFaults none

/-- No token ends at a fault in a tag while the text goes on. -/
theorem past_read (d : Dialect) (mode : Mode) (fresh : c.faults = []) :
    (c.read d mode).2.2.Past := by
  have none : c.tagFaults = [] := by rw [tagFaults, fresh]; rfl
  cases mode with
  | data => exact past_readData d fresh
  | raw element =>
    unfold read readRaw
    dsimp only
    split
    · exact past_readData d fresh
    · exact past_of_tagFaults none
  | replaceable element =>
    unfold read readReplaceable
    dsimp only
    split
    · exact past_of_tagFaults ((tagFaults_readInterpolation c _).trans none)
    · split
      · exact past_readData d fresh
      · repeat' split
        all_goals exact past_of_tagFaults none

end ComponentLoader.Markup.Cursor
