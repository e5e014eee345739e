import ComponentLoader.Proofs.Component.Insertion

/-! A script that is put in at the end. Where it is read as a block, the text before it
comes to an end as well without it: what is read last there is text, and everything
before that is read as it was. -/
namespace ComponentLoader

open Markup (Dialect Head Lexeme NoCloserComes Reads Tag Token)

namespace Layout

variable {kinds : BlockKinds} {k m : Lexeme} {content : String}
  {ls xs ys inside after : List Lexeme} {bs : List Block}

theorem Arrives.nil_of_same (h : Arrives kinds ls bs ls) : bs = [] := by
  have ahead {l : Lexeme} {rest after : List Lexeme} (more : l :: rest <:+ after)
      (tail : after <:+ rest) : False := by
    have length := (more.trans tail).length_le
    rw [List.length_cons] at length
    omega
  cases h with
  | here ls => rfl
  | block token found read more => exact absurd (ahead more.suffix (readBlock_suffix read)) id
  | element token plain opens closed more =>
    exact absurd (ahead more.suffix (emptying_suffix closed)) id
  | alone token plain alone more => exact absurd (ahead more.suffix (List.suffix_refl _)) id
  | other noTag more => exact absurd (ahead more.suffix (List.suffix_refl _)) id

/-- What ends before a place, and not with the lexeme that is there before it, ends before that
lexeme. -/
theorem ends_before (inside : List Lexeme) (whole : inside ++ m :: after = xs ++ k :: ys)
    (further : ys <:+ after) (other : m ≠ k) : ∃ zs, after = zs ++ k :: ys := by
  obtain ⟨ws, rfl⟩ := further
  rcases List.eq_nil_or_concat ws with rfl | ⟨zs, w, rfl⟩
  · have parts : inside ++ [m] ++ ys = xs ++ [k] ++ ys := by simpa using whole
    have same := List.append_cancel_right parts
    exact absurd (List.cons.inj (List.append_inj_right' same rfl)).1 other
  · have parts : inside ++ m :: zs ++ [w] ++ ys = xs ++ [k] ++ ys := by simpa using whole
    have same := List.append_cancel_right parts
    obtain rfl : w = k := (List.cons.inj (List.append_inj_right' same rfl)).1
    exact ⟨zs, by simp⟩

/-- Where reading arrives after a text, it arrives before the text. -/
theorem Arrives.before_text (text : k.token = .text content)
    (h : Arrives kinds (xs ++ k :: ys) bs ys) : Arrives kinds (xs ++ k :: ys) bs (k :: ys) := by
  generalize whole : xs ++ k :: ys = ls at h
  have ne_of_token {l : Lexeme} {token : Token} (here : l.token = token)
      (noText : ∀ s, token ≠ .text s) : l ≠ k := by
    rintro rfl
    exact noText content (here.symm.trans text)
  induction h generalizing xs with
  | here ls =>
    have length := congrArg List.length whole
    simp at length
    omega
  | @block l rest after ys tag kind b bs token found read more ih =>
    obtain ⟨-, -, -, -, ⟨-, -, -, rfl⟩ | ⟨-, inside, m, rfl, closes, -, -⟩⟩ :=
      readBlock_inversion read
    · obtain ⟨zs, rfl⟩ := ends_before [] whole.symm more.suffix
        (ne_of_token token nofun)
      exact .block token found read (ih rfl)
    · obtain ⟨n, ending, -⟩ := Lexeme.exists_of_ends closes.ends
      obtain ⟨zs, rfl⟩ := ends_before (l :: inside) whole.symm more.suffix
        (ne_of_token ending nofun)
      exact .block token found read (ih rfl)
  | @element l last rest after ys tag bs token plain opens closed more ih =>
    obtain ⟨inside, rfl⟩ := exists_of_emptying closed
    obtain ⟨n, ending⟩ := endTag_of_emptying (List.cons_ne_nil _ _) closed
    obtain ⟨zs, rfl⟩ := ends_before (l :: inside) whole.symm more.suffix
      (ne_of_token ending nofun)
    exact .element token plain opens closed (ih rfl)
  | alone token plain alone more ih =>
    obtain ⟨zs, rfl⟩ := ends_before [] whole.symm more.suffix (ne_of_token token nofun)
    exact .alone token plain alone (ih rfl)
  | @other l rest ys bs noTag more ih =>
    cases xs with
    | nil =>
      obtain ⟨rfl, rfl⟩ := List.cons.inj whole
      rw [more.nil_of_same]
      exact .here _
    | cons x xs =>
      obtain ⟨rfl, rfl⟩ := List.cons.inj whole
      exact .other noTag (ih rfl)

theorem Arrives.unique {bs' : List Block} (h : Arrives kinds ls bs [])
    (h' : Arrives kinds ls bs' []) : bs = bs' := by
  obtain ⟨nodes, read⟩ := onePass_of_arrives_nil 0 h
  obtain ⟨nodes', read'⟩ := onePass_of_arrives_nil 0 h'
  rw [read] at read'
  exact (Layout.mk.inj (Except.ok.inj read')).1

section Texts

variable (texts : ∀ l ∈ ls, ∃ content, l.token = .text content)

include texts

theorem Arrives.of_texts (kinds : BlockKinds) : Arrives kinds ls [] [] := by
  induction ls with
  | nil => exact .here []
  | cons l ls ih =>
    obtain ⟨content, text⟩ := texts l List.mem_cons_self
    exact (ih fun k hk => texts k (List.mem_cons_of_mem l hk)).of_text text

theorem emptying_texts {opened : List String} (some : opened ≠ []) :
    emptying? opened ls = none := by
  induction ls with
  | nil => rfl
  | cons l ls ih =>
    obtain ⟨content, text⟩ := texts l List.mem_cons_self
    rw [emptying_text text some]
    exact ih fun k hk => texts k (List.mem_cons_of_mem l hk)

end Texts

end Layout

theorem Block.Alike.symm {a : List Char} {p p' : Position} {b b' : Block}
    (h : b.Alike (Position.Moved a p p') b') : b'.Alike (Position.Moved a p' p) b := by
  have back {q q' : Position} (moved : Position.Moved a p p' q q') :
      Position.Moved a p' p q' q := by
    obtain ⟨s, t, parts, here, there⟩ := moved
    exact ⟨s, t, parts, there, here⟩
  exact ⟨h.kind.symm, h.attributes.symm, h.synthetic.symm, back h.start, back h.stop,
    back h.contentStart, back h.contentStop⟩

/-- Places that correspond in a text correspond in a longer one. -/
theorem Block.Alike.append {a : List Char} {p p' : Position} {b b' : Block} (t : List Char)
    (h : b.Alike (Position.Moved a p p') b') : b.Alike (Position.Moved (a ++ t) p p') b' := by
  have longer {q q' : Position} (moved : Position.Moved a p p' q q') :
      Position.Moved (a ++ t) p p' q q' := by
    obtain ⟨s, r, rfl, here, there⟩ := moved
    exact ⟨s, r ++ t, List.append_assoc .., here, there⟩
  exact ⟨h.kind, h.attributes, h.synthetic, longer h.start, longer h.stop, longer h.contentStart,
    longer h.contentStop⟩

namespace Component

variable {kinds : BlockKinds} {text : String} {pre : List Char}

/-- The script that is marked at the end of a text, and how it is read. -/
theorem exists_script {layout : Layout} {blocks : List Block} (scripts : kinds.script = true)
    (read : Layout.read kinds text = .ok layout)
    (parts : text.toList = (pre ++ ['\n']) ++ emptyScript)
    (marked : markSynthetic? (Text.utf8Length pre + 1) layout.blocks = some blocks) :
    ∃ before init h, Reads .component (.start text.toList) init h ∧ h.rest = emptyScript ∧
      Layout.Arrives kinds (Dialect.component.lexemes text) before (h.lexemes .component) ∧
      blocks =
        before ++
          [{ scriptAt (Position.start.advance (pre ++ ['\n'])) with synthetic := true }] := by
  obtain ⟨before, b, behind, split, kind, here, rfl⟩ := markSynthetic_inversion marked
  have arrives := Layout.arrives_of_ok ((Layout.read_eq_onePass _ _).symm.trans read)
  rw [split] at arrives
  obtain ⟨l, rest, after, tag, kind', first, token, found, readBlock, further⟩ := arrives.at_block
  obtain ⟨init, cut⟩ := first.suffix
  obtain ⟨h, reads, more, rfl, later⟩ := Markup.exists_head cut.symm
  obtain ⟨stretch, whole, place⟩ := reads.exists_before
  have start : b.span.start = h.position := (Layout.start_of_readBlock readBlock).1
  rw [start, place, Position.offset_start_advance] at here
  obtain rfl : stretch = pre ++ ['\n'] := by
    refine Text.eq_of_utf8Length_eq (whole.symm.trans parts) ?_
    rw [here, Text.utf8Length_append]
    rfl
  have rest' : h.rest = emptyScript := List.append_cancel_left (whole.symm.trans parts)
  have mode := h.mode_of_startTag (reads.settled trivial) more token
  obtain ⟨h', k₁, k₂, own, -, done, -, script⟩ :=
    reads_emptyScript mode (rest'.trans (List.append_nil _).symm)
  have lexemes : h.lexemes .component = [k₁, k₂] := by
    rw [own.lexemes_eq, Head.lexemes_nil done, List.append_nil]
  rw [← later, ← Head.lexemes_cons more] at first
  have only : b :: behind = [scriptAt h.position] := by
    have listed : Layout.Arrives kinds (h.lexemes .component) (b :: behind) [] := by
      rw [Head.lexemes_cons more, later]
      exact .block token found readBlock further
    rw [lexemes] at listed
    exact listed.unique (arrives_emptyScript script scripts [])
  obtain ⟨rfl, rfl⟩ := List.cons.inj only
  rw [place]
  exact ⟨before, init, h, reads, rest', first, rfl⟩

/-- Before a script that is put in at the end, the last that is read is text. -/
theorem text_before_script {init : List Lexeme} {h : Head}
    (parts : text.toList = (pre ++ ['\n']) ++ emptyScript)
    (reads : Reads .component (.start text.toList) init h) (left : h.rest = emptyScript) :
    ∃ init' k h' content pre' t, init = init' ++ [k] ∧
      Reads .component (.start text.toList) init' h' ∧ h'.mode = .data ∧
      h'.rest = t ++ '\n' :: emptyScript ∧ pre = pre' ++ t ∧ '<' ∉ t ∧ k.token = .text content := by
  rcases List.eq_nil_or_concat init with rfl | ⟨init, k, rfl⟩
  · cases reads
    have same : [] ++ emptyScript = (pre ++ ['\n']) ++ emptyScript := left.symm.trans parts
    exact absurd (List.append_cancel_right same) (by simp)
  · rw [List.concat_eq_append] at reads
    obtain ⟨h', first, last⟩ := reads.split
    obtain ⟨more, rfl, rfl⟩ := last.single
    obtain ⟨s, some, rest, -⟩ := Head.exists_text more .component
    obtain ⟨pre', whole, -⟩ := first.exists_before
    rw [left] at rest
    obtain ⟨t, ch, rfl⟩ := (List.eq_nil_or_concat s).resolve_left some
    rw [List.concat_eq_append] at rest
    rw [rest, ← List.append_assoc, ← List.append_assoc] at whole
    have same := List.append_cancel_right (parts.symm.trans whole)
    obtain rfl : '\n' = ch := (List.cons.inj (List.append_inj_right' same rfl)).1
    have noEndTag (r : List Char) : emptyScript ≠ '<' :: '/' :: r := by
      rw [emptyScript_eq]
      intro front
      cases front
    obtain ⟨mode, plain, content, token⟩ := h'.text_before (first.settled trivial) rest left
      (by rw [emptyScript_eq]; exact List.cons_ne_nil _ _) noEndTag (by decide) (by decide)
    refine ⟨init, _, h', content, pre', t, List.concat_eq_append, first, mode, ?_,
      List.append_inj_left' same rfl, ?_, token⟩
    · rw [rest, List.append_assoc, List.singleton_append]
    · exact fun inside => plain (List.mem_append_left _ inside)

/-- Without the script at the end, the same blocks are read before it. -/
theorem read_withoutScript {source : String} {init : List Lexeme} {h : Head} {before : List Block}
    (parts : text.toList = (source.toList ++ ['\n']) ++ emptyScript)
    (reads : Reads .component (.start text.toList) init h) (left : h.rest = emptyScript)
    (arrives : Layout.Arrives kinds (Dialect.component.lexemes text) before
      (h.lexemes .component)) :
    ∃ bs pre t, Layout.Arrives kinds (Dialect.component.lexemes source) bs [] ∧
      source.toList = pre ++ t ∧
      List.Forall₂ (Block.Alike (Position.Moved pre .start .start)) before bs := by
  obtain ⟨init, k, h', content, pre, t, rfl, first, mode, rest, source', plain, token⟩ :=
    text_before_script parts reads left
  have given : Markup.Replaceable (t ++ '\n' :: emptyScript) t init := by
    refine .inr ⟨?_, .inr ⟨by simp, ?_, List.prefix_append _ _⟩⟩
    · intro _ a absent present
      refine absent (present.trans ?_)
      rw [← List.append_assoc]
      exact (List.prefix_append _ _).isInfix
    · intro r front
      cases t with
      | nil => cases front
      | cons c t => exact plain (by rw [(List.cons.inj front).1]; exact List.mem_cons_self)
  have whole : (Head.start text.toList).rest = pre ++ (t ++ '\n' :: emptyScript) := by
    rw [Head.start, parts, source']
    simp
  obtain ⟨ls, h₁, read, rest', mode', -, alike⟩ :=
    first.reread rest given trivial whole (.start source.toList) source' rfl
  have lexemes : Dialect.component.lexemes source = ls ++ h₁.lexemes .component := read.lexemes_eq
  have texts := h₁.texts_of_plain (mode'.trans mode) (rest' ▸ plain)
  have cut : Dialect.component.lexemes text = init ++ k :: h.lexemes .component :=
    reads.lexemes_eq.trans (by rw [List.append_assoc, List.singleton_append])
  rw [cut] at arrives
  obtain ⟨bs, before', same⟩ := (arrives.before_text token).of_alike alike
    (fun opened some _ => Layout.emptying_texts texts some)
  refine ⟨bs, pre, t, ?_, source', same⟩
  rw [lexemes, ← List.append_nil bs]
  exact before'.trans (.of_texts texts kinds)

/-- What is put in at the end leaves the blocks before it as they are. -/
theorem inserted_at_end {o : ComponentOptions} {source : String} {d c : Component}
    (found : read { o with addScript := false } source = .ok d)
    (asked : o.addScript = true ∧ o.kinds.script = true) (missing : d.blocksOf .script = [])
    (last : ∀ t, d.template? = some t → t.span.stop = Position.start.advance source.toList)
    (success : read o source = .ok c) : InsertedAt source source.toList [] d c := by
  obtain ⟨-, placed⟩ := covers_of_read found
  obtain ⟨written, first, rfl⟩ := bare_of_read found
  have own := Layout.arrives_of_ok ((Layout.read_eq_onePass _ _).symm.trans first)
  have plain := written_of_arrives own
  obtain ⟨layout, blocks, second, marked, rfl⟩ :=
    exists_marked first asked missing (insertionOffset_at_end last) success
  have whole := (List.append_nil source.toList).symm
  have text : (withScript source (Text.utf8Length source.toList)).toList =
      source.toList ++ (placeholder ++ []) := by
    rw [withScript_append whole, String.toList_ofList]
  have parts : (withScript source (Text.utf8Length source.toList)).toList =
      (source.toList ++ ['\n']) ++ emptyScript := by
    rw [text, placeholder_eq]
    simp
  obtain ⟨before, init, h, reads, left, arrives, rfl⟩ := exists_script asked.2 second parts marked
  obtain ⟨bs, pre, t, own', source', alike⟩ := read_withoutScript parts reads left arrives
  obtain rfl := own.unique own'
  have same : List.Forall₂ (Block.Alike (Position.Moved source.toList .start .start))
      written.blocks before := by
    rw [source']
    exact alike.flip.imp fun b b' own => own.symm.append t
  have all := List.append_nil written.blocks
  obtain ⟨kept, none⟩ :=
    kept_around whole text (all.symm ▸ placed) (all.symm ▸ plain) same .nil
  exact ⟨rfl, whole, text, last, fun _ => rfl, written.blocks, [], before, [], all.symm, rfl, kept,
    none, same, .nil⟩

theorem insertion_of_missing {o : ComponentOptions} {source : String} {d : Component}
    (found : read { o with addScript := false } source = .ok d)
    (asked : o.addScript = true ∧ o.kinds.script = true) (missing : d.blocksOf .script = []) :
    (∀ c, read o source = .ok c → ∃ pre post, InsertedAt source pre post d c) ∧
      ∀ t, d.template? = some t → ¬ t.CutOff source → ∃ c, read o source = .ok c := by
  constructor
  · intro c success
    by_cases closed : ∃ t, d.template? = some t ∧ ¬ t.CutOff source
    · obtain ⟨t, template, closed⟩ := closed
      obtain ⟨c', pre, post, success', inserted⟩ :=
        inserted_of_closed found asked missing template closed
      rw [success] at success'
      cases success'
      exact ⟨pre, post, inserted⟩
    · refine ⟨source.toList, [], inserted_at_end found asked missing ?_ success⟩
      intro t template
      by_contra inside
      exact closed ⟨t, template, fun cut => inside cut.1⟩
  · intro t template closed
    obtain ⟨c, -, -, success, -⟩ := inserted_of_closed found asked missing template closed
    exact ⟨c, success⟩

/-- The component with the same text and blocks, all of which count as written. -/
def asWritten (c : Component) : Component where
  filename := c.filename
  source := c.source
  layout := ⟨c.blocks.map fun b => { b with synthetic := false }, c.layout.nodes⟩
  inserted := false

theorem map_written {bs : List Block} (written : ∀ b ∈ bs, b.synthetic = false) :
    (bs.map fun b => { b with synthetic := false }) = bs := by
  refine (List.map_congr_left ?_).trans (List.map_id bs)
  intro b listed
  rw [← written b listed]
  rfl

theorem written_of_read {kinds : BlockKinds} {source : String} {layout : Layout}
    (read : Layout.read kinds source = .ok layout) : ∀ b ∈ layout.blocks, b.synthetic = false :=
  written_of_arrives (Layout.arrives_of_ok ((Layout.read_eq_onePass _ _).symm.trans read))

/-- The text of a component is read as the same component. -/
theorem read_source_of_read {o : ComponentOptions} {source : String} {c : Component}
    (success : read o source = .ok c) : read o c.source = .ok c.asWritten := by
  obtain ⟨written, first, rfl | ⟨-, layout, blocks, second, marked, rfl⟩⟩ := read_cases success
  · simp only [success, asWritten, blocks, map_written (written_of_read first)]
  · obtain ⟨before, b, after, split, kind, -, rfl⟩ := markSynthetic_inversion marked
    have present : (Component.mk o.filename
        (withScript source (Component.mk o.filename source written false).insertionOffset) layout
        false).present.script = true := by
      simp [present, BlockKinds.ofList, blocks, split, kind]
    have same :=
      map_markSynthetic (f := fun b => { b with synthetic := false }) (fun _ => rfl) marked
    rw [map_written (written_of_read second)] at same
    simp only [read, second, present, bind, Except.bind, Bool.not_true, Bool.and_false,
      Bool.false_eq_true, if_false, asWritten, blocks, same]
    rfl

/-- A script is put in after the first template or at the end, and changes nothing else: the other
blocks are those of the file as it is written. There is always room after a template that the end of
the text does not cut off, and the text with the script is read as the same blocks again. -/
theorem script_insertion_keeps_blocks {o : ComponentOptions}
    (asked : o.addScript = true ∧ o.kinds.script = true) (source : String) :
    (∀ d, read { o with addScript := false } source = .ok d → d.blocksOf .script = [] →
      (∀ c, read o source = .ok c → ∃ pre post, InsertedAt source pre post d c) ∧
        ∀ t, d.template? = some t → ¬ t.CutOff source → ∃ c, read o source = .ok c) ∧
      ∀ c, read o source = .ok c → read o c.source = .ok c.asWritten :=
  ⟨fun _ found missing => insertion_of_missing found asked missing,
    fun _ success => read_source_of_read success⟩

/-- A script is put in between a template and an element that never ends. -/
theorem script_inserted_before_open_element :
    ∃ d c : Component,
      read { addScript := false } "<template>a</template><p>" = .ok d ∧ d.blocksOf .script = [] ∧
      read {} "<template>a</template><p>" = .ok c ∧
      (∃ pre post, InsertedAt "<template>a</template><p>" pre post d c) ∧
      read {} c.source = .ok c.asWritten := by
  have evaluated : (read { addScript := false } "<template>a</template><p>").toOption.map
      (fun d => (d.template?.map (·.span.stop), d.blocksOf .script)) =
        some (some ⟨22, 1, 23⟩, []) := by
    decide +kernel
  have last : Position.start.advance "<template>a</template><p>".toList = ⟨25, 1, 26⟩ := by
    decide +kernel
  cases found : read { addScript := false } "<template>a</template><p>" with
  | error cause => simp [found, Except.toOption] at evaluated
  | ok d =>
    rw [found] at evaluated
    obtain ⟨stop, missing⟩ := Prod.mk.inj (Option.some.inj evaluated)
    obtain ⟨t, template, stop⟩ := Option.map_eq_some_iff.mp stop
    have closed : ¬ t.CutOff "<template>a</template><p>" := by
      intro cut
      have same := stop.symm.trans (cut.1.trans last)
      simp at same
    obtain ⟨all, again⟩ := script_insertion_keeps_blocks (o := {}) ⟨rfl, rfl⟩
      "<template>a</template><p>"
    obtain ⟨kept, some⟩ := all d found missing
    obtain ⟨c, success⟩ := some t template closed
    exact ⟨d, c, rfl, missing, success, kept c success, again c success⟩

/-- No script is put in where the end of the text cuts off the end tag of the template. -/
theorem no_script_after_cut_off_template :
    ¬ ∀ (o : ComponentOptions) (source : String) (d : Component),
      o.addScript = true ∧ o.kinds.script = true →
      read { o with addScript := false } source = .ok d → d.template?.isSome = true →
      d.blocksOf .script = [] → ∃ c, read o source = .ok c := by
  intro always
  have evaluated : (read { addScript := false } "<template>a</template").toOption.map
      (fun d => (d.template?.isSome, d.blocksOf .script)) = some (true, []) := by
    decide +kernel
  have refused : (read {} "<template>a</template").toOption.isSome = false := by
    decide +kernel
  cases found : read { addScript := false } "<template>a</template" with
  | error cause => simp [found, Except.toOption] at evaluated
  | ok d =>
    rw [found] at evaluated
    obtain ⟨template, missing⟩ := Prod.mk.inj (Option.some.inj evaluated)
    obtain ⟨c, success⟩ := always {} _ d ⟨rfl, rfl⟩ found template missing
    rw [success] at refused
    cases refused

end Component

end ComponentLoader
