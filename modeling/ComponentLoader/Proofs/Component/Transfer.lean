import ComponentLoader.Proofs.Component.Arrival
import ComponentLoader.Proofs.Markup.Rereading

/-! Top levels of lexemes that say the same. Where the lexemes up to some place are
replaced by others that say the same, reading passes the same blocks on the way to
that place, whatever comes after it, as long as no element that is left open there
ends after it now. -/
namespace ComponentLoader

open Markup (Lexeme Tag Token)

/-- Two blocks that say the same, at corresponding places of two texts. -/
structure Block.Alike (near : Position → Position → Prop) (b b' : Block) : Prop where
  kind : b.kind = b'.kind
  attributes : b.attributes = b'.attributes
  synthetic : b.synthetic = b'.synthetic
  start : near b.span.start b'.span.start
  stop : near b.span.stop b'.span.stop
  contentStart : near b.content.start b'.content.start
  contentStop : near b.content.stop b'.content.stop

namespace Layout

variable {kinds : BlockKinds} {near : Position → Position → Prop} {name : String} {depth : Nat}
  {opened : List String} {l l' : Lexeme} {xs xs' ys zs ws : List Lexeme}

theorem opens_of_alike {tag tag' : Tag} (same : tag.Alike tag') : tag.opens = tag'.opens := by
  rw [Tag.opens, Tag.opens, same.selfClosing, same.name]

theorem blockKind_of_alike {tag tag' : Tag} (same : tag.Alike tag') (kinds : BlockKinds) :
    blockKind? kinds tag = blockKind? kinds tag' := by
  rw [blockKind?, blockKind?, same.name]

section Alike

variable (h : l.Alike near l')

include h

theorem ends_of_alike (name : String) : l.ends name = l'.ends name := by
  have token := h.token
  unfold Lexeme.ends
  generalize l.token = t, l'.token = t' at token
  cases token with
  | startTag same => rfl
  | endTag n => rfl
  | text s s' => rfl
  | comment s s' => rfl

theorem begins_of_alike (name : String) : l.begins name = l'.begins name := by
  have token := h.token
  unfold Lexeme.begins
  generalize l.token = t, l'.token = t' at token
  cases token with
  | startTag same => simp only [same.name, same.selfClosing]
  | endTag n => rfl
  | text s s' => rfl
  | comment s s' => rfl

theorem track_of_alike (opened : List String) : track opened l.token = track opened l'.token := by
  have token := h.token
  generalize l.token = t, l'.token = t' at token
  cases token with
  | startTag same =>
    rw [track, track, opens_of_alike same, same.name]
  | endTag n => rfl
  | text s s' => rfl
  | comment s s' => rfl

theorem startTag_of_alike {tag : Tag} (token : l.token = .startTag tag) :
    ∃ tag', l'.token = .startTag tag' ∧ tag.Alike tag' := by
  have alike := h.token
  rw [token] at alike
  generalize l'.token = token' at alike
  cases alike with
  | startTag same => exact ⟨_, rfl, same⟩

theorem endTag_of_alike {name : String} (token : l.token = .endTag name) :
    l'.token = .endTag name := by
  have alike := h.token
  rw [token] at alike
  generalize l'.token = token' at alike
  cases alike with
  | endTag => rfl

end Alike

theorem blockEnd_of_alike {span : Span} (alike : List.Forall₂ (Lexeme.Alike near) xs xs')
    (ended : blockEnd? name depth (xs ++ ys) = some (span, ws ++ ys)) (zs : List Lexeme) :
    ∃ (m m' : Lexeme) (ws' : List Lexeme), span = m.span ∧ m.Alike near m' ∧
      blockEnd? name depth (xs' ++ zs) = some (m'.span, ws' ++ zs) ∧
      List.Forall₂ (Lexeme.Alike near) ws ws' := by
  induction alike generalizing depth with
  | nil =>
    have shorter := length_blockEnd_lt ended
    rw [List.nil_append, List.length_append] at shorter
    omega
  | @cons l l' xs xs' first rest ih =>
    cases ending : l.ends name with
    | true =>
      have ending' : l'.ends name = true := ends_of_alike first name ▸ ending
      cases depth with
      | zero =>
        rw [List.cons_append, blockEnd_here ending] at ended
        obtain ⟨rfl, same⟩ := Prod.mk.inj (Option.some.inj ended)
        obtain rfl := List.append_cancel_right same
        exact ⟨l, l', xs', rfl, first, blockEnd_here ending' _, rest⟩
      | succ depth =>
        rw [List.cons_append, blockEnd_of_ends ending] at ended
        rw [List.cons_append, blockEnd_of_ends ending']
        exact ih ended
    | false =>
      have ending' : l'.ends name = false := ends_of_alike first name ▸ ending
      have count : [l].countP (·.begins name) = [l'].countP (·.begins name) := by
        simp only [List.countP_cons, List.countP_nil, begins_of_alike first name]
      rw [List.cons_append, blockEnd_of_not_ends ending, count] at ended
      rw [List.cons_append, blockEnd_of_not_ends ending']
      exact ih ended

theorem emptying_of_alike {last : Lexeme} (alike : List.Forall₂ (Lexeme.Alike near) xs xs')
    (closed : emptying? opened (xs ++ ys) = some (last, ws ++ ys)) (zs : List Lexeme) :
    ∃ last' ws', emptying? opened (xs' ++ zs) = some (last', ws' ++ zs) ∧
      List.Forall₂ (Lexeme.Alike near) ws ws' := by
  induction alike generalizing opened with
  | nil =>
    have shorter := length_emptying_lt closed
    rw [List.nil_append, List.length_append] at shorter
    omega
  | @cons l l' xs xs' first rest ih =>
    rw [List.cons_append, emptying_cons] at closed
    rw [List.cons_append, emptying_cons, ← track_of_alike first]
    split at closed
    · next empty =>
      obtain ⟨rfl, same⟩ := Prod.mk.inj (Option.some.inj closed)
      obtain rfl := List.append_cancel_right same
      rw [if_pos empty]
      exact ⟨l', xs', rfl, rest⟩
    · next still =>
      rw [if_neg still]
      exact ih closed

/-- No element that is open at the one list of lexemes and does not end there ends at the other. -/
def StaysOpen (ys zs : List Lexeme) : Prop :=
  ∀ opened, opened ≠ [] → emptying? opened ys = none → emptying? opened zs = none

theorem emptying_none_of_alike (alike : List.Forall₂ (Lexeme.Alike near) xs xs')
    (stays : StaysOpen ys zs) (some : opened ≠ []) (never : emptying? opened (xs ++ ys) = none) :
    emptying? opened (xs' ++ zs) = none := by
  induction alike generalizing opened with
  | nil => exact stays opened some never
  | @cons l l' xs xs' first rest ih =>
    rw [List.cons_append, emptying_cons] at never
    rw [List.cons_append, emptying_cons, ← track_of_alike first]
    split at never
    · cases never
    · next still =>
      rw [if_neg still]
      exact ih still never

theorem find_tagSyntax_eq_none_iff (l : Lexeme) :
    l.faults.find? (·.kind.isTagSyntax) = none ↔ l.tagFaults = [] := by
  simp [Lexeme.tagFaults, List.find?_eq_none, List.filter_eq_nil_iff]

theorem attributes_of_alike {tag tag' : Tag} (same : tag.Alike tag') :
    tag.attributes.map (fun a => (⟨a.name, a.value⟩ : BlockAttribute)) =
      tag'.attributes.map fun a => ⟨a.name, a.value⟩ := by
  have through (tag : Tag) : tag.attributes.map (fun a => (⟨a.name, a.value⟩ : BlockAttribute)) =
      (tag.attributes.map (·.said)).map fun said => ⟨said.1, said.2⟩ := by
    rw [List.map_map]
    rfl
  rw [through, through, same.attributes]

theorem readBlock_of_alike {kind : BlockKind} {tag tag' : Tag} {b : Block} (first : l.Alike near l')
    (same : tag.Alike tag') (alike : List.Forall₂ (Lexeme.Alike near) xs xs')
    (read : readBlock kind tag l (xs ++ ys) = .ok (b, ws ++ ys)) (zs : List Lexeme) :
    ∃ b' ws', readBlock kind tag' l' (xs' ++ zs) = .ok (b', ws' ++ zs) ∧ b.Alike near b' ∧
      List.Forall₂ (Lexeme.Alike near) ws ws' := by
  have faultless := (readBlock_inversion read).1
  have faultless' : l'.faults.find? (·.kind.isTagSyntax) = none := by
    rw [find_tagSyntax_eq_none_iff] at faultless ⊢
    exact first.faults ▸ faultless
  have said := attributes_of_alike same
  cases closing : tag.selfClosing with
  | true =>
    have closing' : tag'.selfClosing = true := same.selfClosing ▸ closing
    rw [readBlock_of_selfClosing faultless closing] at read
    obtain ⟨rfl, rest⟩ := Prod.mk.inj (Except.ok.inj read)
    obtain rfl := List.append_cancel_right rest
    refine ⟨_, xs', readBlock_of_selfClosing faultless' closing', ?_, alike⟩
    exact ⟨rfl, said, rfl, first.start, first.stop, first.stop, first.stop⟩
  | false =>
    have closing' : tag'.selfClosing = false := same.selfClosing ▸ closing
    rw [readBlock_of_opens faultless closing] at read
    rw [readBlock_of_opens faultless' closing']
    cases ended : blockEnd? tag.name 0 (xs ++ ys) with
    | none =>
      rw [ended] at read
      cases read
    | some found =>
      obtain ⟨span, after⟩ := found
      rw [ended] at read
      obtain ⟨rfl, rfl⟩ := Prod.mk.inj (Except.ok.inj read)
      obtain ⟨m, m', ws', rfl, last, ended', rest⟩ := blockEnd_of_alike alike ended zs
      rw [← same.name, ended']
      exact ⟨_, ws', rfl, ⟨rfl, said, rfl, first.start, last.stop, first.stop, last.start⟩, rest⟩

/-- What is passed before the lexemes `ys` and takes at least one lexeme begins before them. -/
theorem exists_cons_of_suffix {rest after : List Lexeme} (whole : xs ++ ys = l :: rest)
    (further : ys <:+ after) (later : after <:+ rest) :
    ∃ ks ws, xs = l :: ks ∧ rest = ks ++ ys ∧ after = ws ++ ys := by
  obtain ⟨ws, same⟩ := further
  cases xs with
  | nil =>
    have short := (List.IsSuffix.trans ⟨ws, same⟩ later).length_le
    have long := congrArg List.length whole
    simp at long
    omega
  | cons k ks =>
    obtain ⟨rfl, rest⟩ := List.cons.inj whole
    exact ⟨ks, ws, rfl, rest.symm, same.symm⟩

/-- Reading comes to the same place past the same blocks. -/
theorem Arrives.of_alike {blocks : List Block} (h : Arrives kinds (xs ++ ys) blocks ys)
    (alike : List.Forall₂ (Lexeme.Alike near) xs xs') (stays : StaysOpen ys zs) :
    ∃ blocks', Arrives kinds (xs' ++ zs) blocks' zs ∧
      List.Forall₂ (Block.Alike near) blocks blocks' := by
  generalize whole : xs ++ ys = ls at h
  induction h generalizing xs xs' with
  | here ls =>
    obtain rfl : xs = [] := List.self_eq_append_left.mp whole.symm
    cases alike
    exact ⟨[], .here zs, .nil⟩
  | @block l rest after ys tag kind b blocks token found read more ih =>
    obtain ⟨ks, ws, rfl, rfl, rfl⟩ :=
      exists_cons_of_suffix whole more.suffix (readBlock_suffix read)
    cases alike with
    | @cons l l' ks ks' first others =>
      obtain ⟨tag', token', same⟩ := startTag_of_alike first token
      obtain ⟨b', ws', read', block, rest⟩ := readBlock_of_alike first same others read zs
      obtain ⟨blocks', arrives, blocksAlike⟩ := ih rest stays rfl
      have found' : blockKind? kinds tag' = some kind := blockKind_of_alike same kinds ▸ found
      exact ⟨b' :: blocks', .block token' found' read' arrives, .cons block blocksAlike⟩
  | @element l last rest after ys tag blocks token plain opens closed more ih =>
    obtain ⟨ks, ws, rfl, rfl, rfl⟩ :=
      exists_cons_of_suffix whole more.suffix (emptying_suffix closed)
    cases alike with
    | @cons l l' ks ks' first others =>
      obtain ⟨tag', token', same⟩ := startTag_of_alike first token
      obtain ⟨last', ws', closed', rest⟩ := emptying_of_alike others closed zs
      obtain ⟨blocks', arrives, blocksAlike⟩ := ih rest stays rfl
      have plain' : blockKind? kinds tag' = none := blockKind_of_alike same kinds ▸ plain
      have opens' : tag'.opens = true := opens_of_alike same ▸ opens
      rw [same.name] at closed'
      exact ⟨blocks', .element token' plain' opens' closed' arrives, blocksAlike⟩
  | @alone l rest ys tag blocks token plain alone more ih =>
    obtain ⟨ks, -, rfl, rfl, -⟩ :=
      exists_cons_of_suffix whole more.suffix (List.suffix_refl rest)
    cases alike with
    | @cons l l' ks ks' first others =>
      obtain ⟨tag', token', same⟩ := startTag_of_alike first token
      obtain ⟨blocks', arrives, blocksAlike⟩ := ih others stays rfl
      have plain' : blockKind? kinds tag' = none := blockKind_of_alike same kinds ▸ plain
      refine ⟨blocks', .alone token' plain' ?_ arrives, blocksAlike⟩
      intro opens'
      have opens : tag.opens = true := (opens_of_alike same).trans opens'
      rw [← same.name]
      exact emptying_none_of_alike others stays (List.cons_ne_nil _ _) (alone opens)
  | @other l rest ys blocks noTag more ih =>
    obtain ⟨ks, -, rfl, rfl, -⟩ :=
      exists_cons_of_suffix whole more.suffix (List.suffix_refl rest)
    cases alike with
    | @cons l l' ks ks' first others =>
      obtain ⟨blocks', arrives, blocksAlike⟩ := ih others stays rfl
      refine ⟨blocks', .other ?_ arrives, blocksAlike⟩
      intro tag' token'
      have alike := first.token
      rw [token'] at alike
      cases token : l.token <;> rw [token] at alike <;> cases alike
      exact noTag _ token

end Layout

end ComponentLoader
