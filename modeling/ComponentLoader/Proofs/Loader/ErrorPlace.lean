import ComponentLoader.Loader.Run
import ComponentLoader.Proofs.Component.ErrorPlace
import ComponentLoader.Proofs.Loader.BlockAnswer

/-! Where the error of a request is. It is a stretch of the file that is asked for, but
for a fault in a template that comes after a script that was put in: that one is placed
in the text with the script, and so lies further on in the file, by as much as was put
in. -/
namespace ComponentLoader

open Markup (Fault)

namespace Position

/-- Moving a place into a text that begins elsewhere and going on from it is the same in either
order. -/
theorem relocate_advance_of_pos {p base : Position} (line : 1 ≤ p.line) (column : 1 ≤ p.column)
    (s : List Char) : (p.advance s).relocate base = (p.relocate base).advance s := by
  induction s generalizing p with
  | nil => rfl
  | cons c s ih =>
    have here : (p.step c).relocate base = (p.relocate base).step c := by
      unfold step
      split
      · simp only [relocate, mk.injEq]
        refine ⟨by omega, by omega, ?_⟩
        rw [if_neg (by omega)]
      · simp only [relocate, mk.injEq, true_and]
        refine ⟨by omega, ?_⟩
        split <;> omega
    have positive : 1 ≤ (p.step c).line ∧ 1 ≤ (p.step c).column := by
      unfold step
      split
      · exact ⟨Nat.le_add_left 1 p.line, Nat.le_refl 1⟩
      · exact ⟨line, Nat.le_add_left 1 p.column⟩
    rw [advance_cons, advance_cons, ih positive.1 positive.2, here]

/-- A place in a text that begins elsewhere is as far from there as from its own beginning. -/
theorem relocate_advance (base : Position) (s : List Char) :
    (start.advance s).relocate base = base.advance s := by
  rw [relocate_advance_of_pos (Nat.le_refl 1) (Nat.le_refl 1)]
  have here : start.relocate base = base := by
    simp [relocate, start]
  rw [here]

end Position

/-- A stretch of a part of a text is moved to where it is in the whole text. -/
theorem Span.Within.relocate {part : List Char} {s : Span} (h : s.Within (String.ofList part))
    (before : List Char) :
    ∃ u m v, part = u ++ m ++ v ∧
      s = ⟨Position.start.advance u, Position.start.advance (u ++ m)⟩ ∧
      s.relocate (Position.start.advance before) =
        ⟨Position.start.advance (before ++ u), Position.start.advance (before ++ u ++ m)⟩ := by
  obtain ⟨u, m, v, parts, start, stop⟩ := h.ends.1.between h.ends.2 h.order
  rw [String.toList_ofList] at parts
  obtain ⟨p, q⟩ := s
  obtain rfl : p = Position.start.advance u := start
  obtain rfl : q = Position.start.advance (u ++ m) := stop
  refine ⟨u, m, v, parts, rfl, ?_⟩
  rw [Span.relocate, Position.relocate_advance, Position.relocate_advance]
  simp only [Position.advance_append]

/-- A stretch of the content of a block is one of the whole text, with the same text in it. -/
theorem Block.Placed.relocate {c : Component} {b : Block} {s : Span} (placed : b.Placed c.source)
    (h : s.Within (c.contentOf b)) :
    (s.relocate b.content.start).Within c.source ∧
      b.content.start.offset ≤ (s.relocate b.content.start).start.offset ∧
      (s.relocate b.content.start).stop.offset ≤ b.content.stop.offset ∧
      (s.relocate b.content.start).text c.source = s.text (c.contentOf b) := by
  obtain ⟨before, part, after, whole, own, content⟩ := placed.exists_parts
  rw [Component.contentOf, content] at h ⊢
  obtain ⟨u, m, v, inner, same, moved⟩ := h.relocate before
  have whole' : c.source.toList = (before ++ u) ++ m ++ (v ++ after) := by
    rw [whole, inner]
    simp
  rw [own, moved, same]
  refine ⟨⟨⟨⟨before ++ u, m ++ (v ++ after), ?_, rfl⟩, ⟨before ++ u ++ m, v ++ after, whole', rfl⟩⟩,
    ?_⟩, ?_, ?_, ?_⟩
  · rw [whole', List.append_assoc]
  · simp only [Position.offset_start_advance, Text.utf8Length_append]
    omega
  · simp only [Position.offset_start_advance, Text.utf8Length_append]
    omega
  · simp only [Position.offset_start_advance, Text.utf8Length_append, inner]
    omega
  · rw [Span.text_of_parts whole', Span.text_of_parts (String.toList_ofList.trans inner)]

/-- Whatever goes wrong is nowhere in the file. -/
def Unlocated {α : Type} (x : Except LoadError α) : Prop := ∀ e, x = .error e → e.span? = none

namespace Unlocated

variable {α β : Type}

theorem ok (a : α) : Unlocated (.ok a) := nofun

theorem error {e : LoadError} (nowhere : e.span? = none) : Unlocated (.error e : Except _ α) := by
  rintro _ ⟨⟩
  exact nowhere

theorem bind {x : Except LoadError α} {f : α → Except LoadError β} (h : Unlocated x)
    (further : ∀ a, Unlocated (f a)) : Unlocated (x >>= f) := by
  cases x with
  | error e => exact error (h e rfl)
  | ok a => exact further a

theorem mapM {x : Option α} {f : α → Except LoadError β} (h : ∀ a, Unlocated (f a)) :
    Unlocated (x.mapM f) := by
  cases x with
  | none => exact ok none
  | some a => exact bind (h a) fun b => ok (some b)

theorem ofName (name : String) : Unlocated (BlockKind.ofName name) := by
  unfold BlockKind.ofName
  split
  · exact ok _
  · exact error rfl

theorem target (name : String) : Unlocated (Target.ofName name) := by
  unfold Target.ofName
  split
  · exact ok _
  · exact error rfl

theorem ofQuery (kind : BlockKind) (o : LoaderOptions) (query : Query) (path : String) :
    Unlocated (Extraction.ofQuery kind o query path) := by
  refine bind (mapM target) fun named => bind ?_ fun selector => ok _
  refine bind (mapM fun text => ?_) fun index => ok _
  split
  · exact ok _
  · exact error rfl

theorem entry (o : LoaderOptions) (c : Component) : Unlocated (o.entry c) := by
  refine bind ?_ fun template => ok _
  unfold Component.importTemplate
  split
  · exact ok _
  · refine bind ?_ fun t => ?_
    · unfold Block.targetIn
      split
      · exact target _
      · exact ok _
    · split <;> exact ok _

end Unlocated

def LoaderOptions.compileOptions (o : LoaderOptions) : Template.Options :=
  if o.fillRoot then o.templateOptions else {}

/-- The error is the first fault of a template, at its place in the file. -/
def LoadError.FirstFault (o : LoaderOptions) (c : Component) (b : Block) (f : Fault)
    (e : LoadError) : Prop :=
  (Template.parse o.compileOptions (c.contentOf b)).faults.head? = some f ∧
    e = .template (f.relocate b.content.start)

theorem firstFault_of_compileTemplate {x : Extraction} {c : Component} {b : Block} {e : LoadError}
    (h : compileTemplate x c b = .error e) : ∃ f, e.FirstFault x.options c b f := by
  have faults : (if x.options.fillRoot then
      Template.parseComponent x.options.templateOptions true (c.contentOf b)
      else Template.parse {} (c.contentOf b)).faults =
        (Template.parse x.options.compileOptions (c.contentOf b)).faults := by
    unfold LoaderOptions.compileOptions
    split <;> rfl
  unfold compileTemplate Template.Parsed.checked at h
  dsimp only at h
  rw [faults] at h
  split at h
  · cases h
  · next f checked =>
    cases h
    split at checked
    · cases checked
    · next first rest all =>
      cases checked
      exact ⟨f, by rw [all]; rfl, rfl⟩

namespace Component

variable {c : Component} {x : Extraction} {e : LoadError}

/-- An error of handing out a template that is in the file is its first fault. -/
theorem fault_of_extractTemplate (failed : c.extractTemplate x = .error e)
    (located : e.span?.isSome) :
    ∃ b f, c.select .template x.selector = some b ∧ e.FirstFault x.options c b f := by
  unfold extractTemplate at failed
  cases selected : c.select .template x.selector with
  | none =>
    simp only [selected] at failed
    cases failed
    cases located
  | some b =>
    simp only [selected] at failed
    split at failed
    · split at failed
      · cases failed
      · cases failed
        cases located
    · split at failed
      · cases failed
      · split at failed
        · cases failed
          cases located
        · rcases error_of_bind failed with compiled | ⟨node, -, failed⟩
          · obtain ⟨f, first⟩ := firstFault_of_compileTemplate compiled
            exact ⟨b, f, rfl, first⟩
          · cases failed

/-- An error of handing out a block that is in the file is a fault of its template. -/
theorem fault_of_extract (failed : c.extract x = .error e) (located : e.span?.isSome) :
    ∃ b ∈ c.blocksOf .template, ∃ f, e.FirstFault x.options c b f := by
  unfold extract at failed
  split at failed
  · obtain ⟨b, f, selected, first⟩ := fault_of_extractTemplate failed located
    exact ⟨b, mem_of_select selected, f, first⟩
  · cases failed

end Component

namespace LoaderOptions

variable {o : LoaderOptions} {path source query : String} {e : LoadError} {s : Span}

/-- An error that is in the file is about the file as a component, or about a template in it. -/
theorem error_cases (failed : o.run path source query = .error e) (located : e.span?.isSome) :
    (∃ cause, e = .component cause ∧
      Component.read ⟨path, .all, o.addScript⟩ source = .error cause) ∨
    ∃ c, o.component path source = .ok c ∧
      ∃ b ∈ c.blocksOf .template, ∃ f, e.FirstFault o c b f := by
  have unlocated {α : Type} {x : Except LoadError α} (h : Unlocated x) : x ≠ .error e := by
    intro same
    rw [h e same] at located
    cases located
  rcases error_of_bind failed with refused | ⟨c, read, failed⟩
  · unfold component at refused
    cases own : Component.read ⟨path, .all, o.addScript⟩ source with
    | error cause =>
      rw [own] at refused
      cases refused
      exact .inl ⟨cause, rfl, rfl⟩
    | ok c =>
      rw [own] at refused
      cases refused
  · refine .inr ⟨c, read, ?_⟩
    dsimp only at failed
    split at failed
    · next name asked =>
      rcases error_of_bind failed with unknown | ⟨kind, -, failed⟩
      · exact absurd unknown (unlocated (.ofName name))
      rcases error_of_bind failed with unread | ⟨x, extraction, failed⟩
      · exact absurd unread (unlocated (.ofQuery kind o _ path))
      rcases error_of_bind failed with extracted | ⟨result, -, failed⟩
      · obtain ⟨-, -, -, own⟩ := Extraction.fields_of_ofQuery extraction
        exact own ▸ Component.fault_of_extract extracted located
      · cases failed
    · exact absurd failed (unlocated (.entry o c))

/-- Where the error of a request is. An error about the file as a component is a stretch of the
file. So is a fault of a template, unless the template comes after a script that was put in: then
the stretch that is named lies further on than the one that the fault is about, by as much as was
put in. -/
theorem place_of_error (failed : o.run path source query = .error e) (located : e.span? = some s) :
    (∃ cause, e = .component cause ∧ s.Within source ∧ (cause = .scriptNotRecognized ∨
      ∃ text added, text.toList = source.toList ++ added ∧
        (added = [] ∨ added = Component.placeholder) ∧ cause.About .all text ∧
        s.text source = s.text text)) ∨
    ∃ c b f t, o.component path source = .ok c ∧ b ∈ c.blocksOf .template ∧
      e.FirstFault o c b f ∧ f.span.Within (c.contentOf b) ∧ t.Within source ∧
      t.text source = f.span.text (c.contentOf b) ∧ (s = t ↔ ¬ c.AfterScript b) ∧
      (c.AfterScript b → Component.PushedOn source t s) := by
  rcases error_cases failed (by rw [located]; rfl) with
    ⟨cause, rfl, refused⟩ | ⟨c, read, b, listed, f, first, rfl⟩
  · cases located
    obtain ⟨within, about⟩ := Component.error_within refused
    exact .inl ⟨cause, rfl, within, about⟩
  · cases located
    have success := component_ok read
    have kind := Component.kind_of_mem_blocksOf listed
    have inside : b ∈ c.blocks := (List.mem_filter.mp listed).1
    have fault := Template.faults_within o.compileOptions (c.contentOf b) f
      (List.mem_of_mem_head? first)
    obtain ⟨within, start, stop, text⟩ :=
      ((Component.covers_of_read success).2 b inside).relocate fault
    obtain ⟨t, places⟩ := Component.exists_places success inside (by rw [kind]; exact nofun) within
      start stop
    exact .inr ⟨c, b, f, t, read, listed, ⟨first, rfl⟩, fault, places.within,
      places.text.trans text, places.place, places.pushed⟩

def errorSpan? {α : Type} : Except LoadError α → Option Span
  | .error e => e.span?
  | .ok _ => none

theorem exists_error {α : Type} {x : Except LoadError α} (h : errorSpan? x = some s) :
    ∃ e, x = .error e ∧ e.span? = some s := by
  cases x with
  | error e => exact ⟨e, rfl, h⟩
  | ok a => cases h

/-- A fault of the second template, which is placed beyond the end of the file. -/
theorem place_of_error_beyond_end :
    let o : LoaderOptions := { target := .tree }
    let source := "<template>a</template><template><p></i></template>"
    ∃ e s t, o.run "App.san" source "?san&type=template&index=1" = .error e ∧ e.span? = some s ∧
      ¬ s.Within source ∧ t.Within source ∧ Component.PushedOn source t s ∧
      t.start.offset = 35 ∧ t.stop.offset = 39 := by
  intro o source
  have evaluated : errorSpan? (o.run "App.san" source "?san&type=template&index=1") =
      some ⟨⟨53, 2, 31⟩, ⟨57, 2, 35⟩⟩ := by
    decide +kernel
  obtain ⟨e, failed, place⟩ := exists_error evaluated
  have length : Text.utf8Length source.toList = 50 := by decide +kernel
  have beyond : ¬ (Span.mk ⟨53, 2, 31⟩ ⟨57, 2, 35⟩).Within source := by
    rintro ⟨⟨⟨a, b, whole, start⟩, -⟩, -⟩
    have offset := congrArg Position.offset start
    have bound := congrArg Text.utf8Length whole
    rw [Position.offset_start_advance] at offset
    rw [length, Text.utf8Length_append] at bound
    dsimp only at offset
    omega
  rcases place_of_error failed place with
    ⟨cause, -, within, -⟩ | ⟨c, b, f, t, -, -, -, -, within, -, same, pushed⟩
  · exact absurd within beyond
  · have after : c.AfterScript b := by
      by_contra before
      exact beyond (same.mpr before ▸ within)
    obtain ⟨start, stop⟩ := (pushed after).offset
    exact ⟨e, _, t, failed, place, beyond, within, pushed after, by simp at start; omega,
      by simp at stop; omega⟩

end LoaderOptions

end ComponentLoader
