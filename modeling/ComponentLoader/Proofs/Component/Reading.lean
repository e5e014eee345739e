import ComponentLoader.Component.Basic
import ComponentLoader.Proofs.Tiling

/-! Reading a file. The component that comes of it is the one that is written or,
where a script is to be put in, the one that its text then holds; the script that
is put in is marked, and nothing else about a block changes. -/
namespace ComponentLoader.Component

/-- Marking a block as synthetic changes nothing else about any block. -/
theorem map_markSynthetic {f : Block → α} (blind : ∀ b, f { b with synthetic := true } = f b)
    {offset : Nat} {blocks marked : List Block} (h : markSynthetic? offset blocks = some marked) :
    marked.map f = blocks.map f := by
  induction blocks generalizing marked with
  | nil => cases h
  | cons b rest ih =>
    unfold markSynthetic? at h
    split at h
    · cases h
      simp [blind]
    · obtain ⟨tail, marked, rfl⟩ := Option.map_eq_some_iff.mp h
      simp [ih marked]

/-- A script that is put in is all that changes about a text. -/
theorem utf8Length_withScript (source : String) (offset : Nat) :
    Text.utf8Length (withScript source offset).toList =
      Text.utf8Length source.toList + Text.utf8Length scriptPlaceholder.toList := by
  have parts := congrArg Text.utf8Length (Text.takeBytes_append_dropBytes offset source.toList)
  rw [Text.utf8Length_append] at parts
  simp only [withScript, String.toList_append, String.toList_ofList, Text.utf8Length_append]
  omega

/-- What reading a file comes to: the component as it is written or, if it is to have
a script and has none, the component with one put in. -/
theorem read_cases {o : ComponentOptions} {source : String} {c : Component}
    (h : Component.read o source = .ok c) :
    ∃ written, Layout.read o.kinds source = .ok written ∧
      let bare : Component := ⟨o.filename, source, written, false⟩
      let offset := bare.insertionOffset
      (c = bare ∨
        (o.addScript = true ∧ o.kinds.script = true ∧ bare.present.script = false) ∧
          ∃ layout blocks, Layout.read o.kinds (withScript source offset) = .ok layout ∧
            markSynthetic? (offset + 1) layout.blocks = some blocks ∧
            c = ⟨o.filename, withScript source offset, { layout with blocks }, true⟩) := by
  unfold Component.read at h
  cases first : Layout.read o.kinds source with
  | error cause => simp [first, bind, Except.bind] at h
  | ok written =>
    refine ⟨written, rfl, ?_⟩
    simp only [first, bind, Except.bind] at h
    split at h
    · next asked =>
      simp only [Bool.and_eq_true, Bool.not_eq_true', and_assoc] at asked
      split at h
      · cases h
      · next layout second =>
        split at h
        · next blocks marked =>
          cases h
          exact .inr ⟨asked, layout, blocks, second, marked, rfl⟩
        · cases h
    · cases h
      exact .inl rfl

/-- A file that cannot be read has a text that cannot be laid out, as it is or with a
script put in, or the script that was put in is not found again. -/
theorem error_cases {o : ComponentOptions} {source : String} {cause : ComponentError}
    (h : Component.read o source = .error cause) :
    Layout.read o.kinds source = .error cause ∨
      ∃ written, Layout.read o.kinds source = .ok written ∧
        let bare : Component := ⟨o.filename, source, written, false⟩
        (o.addScript = true ∧ o.kinds.script = true ∧ bare.present.script = false) ∧
          (Layout.read o.kinds (withScript source bare.insertionOffset) = .error cause ∨
            cause = .scriptNotRecognized) := by
  unfold Component.read at h
  cases first : Layout.read o.kinds source with
  | error cause' =>
    simp only [first, bind, Except.bind] at h
    cases h
    exact .inl rfl
  | ok written =>
    simp only [first, bind, Except.bind] at h
    split at h
    · next asked =>
      simp only [Bool.and_eq_true, Bool.not_eq_true', and_assoc] at asked
      refine .inr ⟨written, rfl, asked, ?_⟩
      split at h
      · next cause' second =>
        cases h
        exact .inl second
      · split at h
        · cases h
        · cases h
          exact .inr rfl
    · cases h

theorem filename_of_read {o : ComponentOptions} {source : String} {c : Component}
    (h : Component.read o source = .ok c) : c.filename = o.filename := by
  obtain ⟨written, -, rfl | ⟨-, layout, blocks, -, -, rfl⟩⟩ := read_cases h
  · rfl
  · rfl

/-- A component is laid out as its own text is, but that a script may be marked
as synthetic. -/
theorem layout_of_read {o : ComponentOptions} {source : String} {c : Component}
    (h : Component.read o source = .ok c) :
    ∃ layout, Layout.read o.kinds c.source = .ok layout ∧ c.layout.nodes = layout.nodes ∧
      ∀ {α : Type} (f : Block → α), (∀ b, f { b with synthetic := true } = f b) →
        c.blocks.map f = layout.blocks.map f := by
  obtain ⟨written, first, rfl | ⟨-, layout, blocks, second, marked, rfl⟩⟩ := read_cases h
  · exact ⟨written, first, rfl, fun f _ => rfl⟩
  · exact ⟨layout, second, rfl, fun f blind => map_markSynthetic blind marked⟩

/-- The text of a component is that of its file, with at most a script put in. -/
theorem utf8Length_source_le {o : ComponentOptions} {source : String} {c : Component}
    (h : Component.read o source = .ok c) :
    Text.utf8Length c.source.toList ≤
      Text.utf8Length source.toList + Text.utf8Length scriptPlaceholder.toList := by
  obtain ⟨written, -, rfl | ⟨-, layout, blocks, -, -, rfl⟩⟩ := read_cases h
  · exact Nat.le_add_right _ _
  · exact Nat.le_of_eq (utf8Length_withScript source _)

end ComponentLoader.Component
