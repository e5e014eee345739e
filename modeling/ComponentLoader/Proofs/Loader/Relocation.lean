import ComponentLoader.Proofs.Loader.ErrorPlace

/-! Where the fault of a template is that keeps it from being compiled. Compiling meets the fault in
the content of the block, and names it by its place in the text of the component. -/
namespace ComponentLoader

open Markup (Fault)

/-- A place in a part of a text, and the same place in the whole text, where `before` stands before
the part. -/
def Position.SameIn (before part : List Char) (p q : Position) : Prop :=
  ∃ s, s <+: part ∧ p = start.advance s ∧ q = start.advance (before ++ s)

/-- Where a stretch of a part of a text is moved to, it has the same ends, and lies in the part. -/
theorem Span.Within.sameIn {part : List Char} {s : Span} (h : s.Within (String.ofList part))
    (before : List Char) :
    let t := s.relocate (Position.start.advance before)
    Position.SameIn before part s.start t.start ∧ Position.SameIn before part s.stop t.stop ∧
      (Position.start.advance before).offset ≤ t.start.offset ∧ t.start.offset ≤ t.stop.offset ∧
      t.stop.offset ≤ (Position.start.advance (before ++ part)).offset := by
  intro t
  obtain ⟨u, m, v, parts, rfl, moved⟩ := h.relocate before
  have start : u <+: part := ⟨m ++ v, by rw [parts, List.append_assoc]⟩
  have stop : u ++ m <+: part := ⟨v, parts.symm⟩
  have placed : t = _ := moved
  rw [placed]
  refine ⟨⟨u, start, rfl, rfl⟩, ⟨u ++ m, stop, rfl, ?_⟩, ?_, ?_, ?_⟩
  · rw [List.append_assoc]
  · simp only [Position.offset_start_advance, Text.utf8Length_append]
    omega
  · simp only [Position.offset_start_advance, Text.utf8Length_append]
    omega
  · simp only [Position.offset_start_advance, Text.utf8Length_append, parts]
    omega

/-- A place that is reached in a text is moved to the place that is reached by going on from where
the text begins. So the fault that keeps a template from being compiled, which is the first one of
its content, begins and ends at the offset, in the line and in the column of the same places in the
text of the component, and these lie in the content of the block. -/
theorem template_fault_in_place :
    (∀ a s : List Char, (Position.start.advance s).relocate (Position.start.advance a) =
      Position.start.advance (a ++ s)) ∧
    ∀ {o : ComponentOptions} {source : String} {c : Component} {x : Extraction} {fault : Fault},
      Component.read o source = .ok c → c.extractTemplate x = .error (.template fault) →
      ∃ b f before part after, c.select .template x.selector = some b ∧
        c.source.toList = before ++ part ++ after ∧
        b.content = ⟨Position.start.advance before, Position.start.advance (before ++ part)⟩ ∧
        (Template.parse x.options.compileOptions (String.ofList part)).faults.head? = some f ∧
        fault = { f with span := fault.span } ∧
        Position.SameIn before part f.span.start fault.span.start ∧
        Position.SameIn before part f.span.stop fault.span.stop ∧
        b.content.start.offset ≤ fault.span.start.offset ∧
        fault.span.start.offset ≤ fault.span.stop.offset ∧
        fault.span.stop.offset ≤ b.content.stop.offset := by
  constructor
  · intro a s
    rw [Position.relocate_advance, Position.advance_append]
  · intro o source c x fault read failed
    obtain ⟨b, f, selected, first, located⟩ := Component.fault_of_extractTemplate failed rfl
    obtain rfl : fault = f.relocate b.content.start := LoadError.template.inj located
    have inside : b ∈ c.blocks := (List.mem_filter.mp (Component.mem_of_select selected)).1
    have placed := (Component.covers_of_read read).2 b inside
    obtain ⟨before, part, after, parts, own, content⟩ := placed.exists_parts
    rw [Component.contentOf, content] at first
    have within := Template.faults_within _ _ f (List.mem_of_mem_head? first)
    obtain ⟨start, stop, lower, order, upper⟩ := within.sameIn before
    refine ⟨b, f, before, part, after, selected, parts, own, first, rfl, ?_⟩
    rw [own]
    exact ⟨start, stop, lower, order, upper⟩

/-- The fault that keeps the template of a component from being compiled. -/
def templateFault? (o : ComponentOptions) (x : Extraction) (source : String) : Option Fault :=
  match Component.read o source with
  | .error _ => none
  | .ok c =>
    match c.extractTemplate x with
    | .error (.template fault) => some fault
    | _ => none

/-- An element that is not ended begins in the line of the start tag of the template, after that
tag, and what is left of the template ends in the next line. -/
theorem template_fault_in_place_two_lines :
    let source := "<i></i>\n <template><p>\n</template>"
    let x : Extraction := { kind := .template, filename := "App.san", target := .tree, options := {} }
    ∃ (c : Component) (b : Block) (f fault : Fault) (before part : List Char),
      Component.read {} source = .ok c ∧ c.extractTemplate x = .error (.template fault) ∧
      fault = ⟨.missingEndTag, ⟨⟨19, 2, 12⟩, ⟨23, 3, 1⟩⟩, ""⟩ ∧
      c.select .template x.selector = some b ∧
      Position.SameIn before part f.span.start fault.span.start ∧
      Position.SameIn before part f.span.stop fault.span.stop := by
  intro source x
  have evaluated : templateFault? {} x source =
      some ⟨.missingEndTag, ⟨⟨19, 2, 12⟩, ⟨23, 3, 1⟩⟩, ""⟩ := by
    decide +kernel
  unfold templateFault? at evaluated
  split at evaluated
  · cases evaluated
  · next c read =>
    split at evaluated
    · next fault failed =>
      obtain ⟨b, f, before, part, -, selected, -, -, -, -, start, stop, -⟩ :=
        template_fault_in_place.2 read failed
      exact ⟨c, b, f, fault, before, part, read, failed, Option.some.inj evaluated, selected, start,
        stop⟩
    · cases evaluated

end ComponentLoader
