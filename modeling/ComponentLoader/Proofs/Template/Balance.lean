import ComponentLoader.Proofs.Template.Nodes
import Mathlib.Data.List.Perm.Subperm

/-! Whether the tags of a template are balanced. Of a tree in the making only the open
elements matter to this, by their names and beginnings, and the faults of balance found so
far. Each lexeme adds an open tag or takes an end tag into account, and what is left open,
what is reported and what has been read stay in balance. -/
namespace ComponentLoader.Template

open Markup (Dialect Fault FaultKind Lexeme Tag Token)

def openTags (ls : List Lexeme) : List Lexeme :=
  ls.filter fun l =>
    match l.token with
    | .startTag tag => tag.opens
    | _ => false

def endTags (ls : List Lexeme) : List Lexeme :=
  ls.filter fun l =>
    match l.token with
    | .endTag _ => true
    | _ => false

/-- The tags are well nested within open elements of the given names, the innermost first: each end
tag has the name, in any case, of the innermost element that is open there, and no element stays
open. -/
inductive Nests : List String → List Token → Prop
  | done : Nests [] []
  | opens {opened : List String} {tag : Tag} {rest : List Token} (waits : tag.opens = true)
      (nests : Nests (tag.name :: opened) rest) : Nests opened (.startTag tag :: rest)
  | ends {opened : List String} {inner name : String} {rest : List Token}
      (same : Text.sameIgnoringCase inner name = true) (nests : Nests opened rest) :
      Nests (inner :: opened) (.endTag name :: rest)
  | other {opened : List String} {token : Token} {rest : List Token}
      (noTag : ∀ tag, token = .startTag tag → tag.opens = false)
      (noEnd : ∀ name, token ≠ .endTag name) (nests : Nests opened rest) :
      Nests opened (token :: rest)

/-- What is open, the innermost element first, where the elements begin that were reported as
lacking end tags, and how many end tags were reported. -/
structure Tally where
  opened : List (String × Position)
  missing : List Position
  invalid : Nat

namespace Tally

/-- Takes an end tag into account, which ends the innermost open element of its name and those
within it, or none. -/
def close (t : Tally) (name : String) : Tally :=
  match t.opened.findIdx? (Text.sameIgnoringCase ·.1 name) with
  | none => { t with invalid := t.invalid + 1 }
  | some inner =>
    { t with
      opened := t.opened.drop (inner + 1)
      missing := t.missing ++ (t.opened.take inner).map (·.2) }

def step (t : Tally) (l : Lexeme) : Tally :=
  match l.token with
  | .startTag tag =>
    if tag.opens then { t with opened := (tag.name, l.span.start) :: t.opened } else t
  | .endTag name => t.close name
  | _ => t

def finish (t : Tally) : Tally :=
  { t with opened := [], missing := t.missing ++ t.opened.map (·.2) }

end Tally

namespace Builder

def tally (b : Builder) : Tally where
  opened := b.opened.map fun e => (e.name, e.start)
  missing := (b.faults.filter (·.kind == .missingEndTag)).map (·.span.start)
  invalid := (b.faults.filter (·.kind == .invalidEndTag)).length

variable (b : Builder)

/-- Faults of other kinds leave the balance as it is. -/
theorem tally_met {faults : List Fault}
    (neutral : ∀ f ∈ faults, f.kind ≠ .missingEndTag ∧ f.kind ≠ .invalidEndTag) :
    tally { b with faults := b.faults ++ faults } = b.tally := by
  have noMissing : faults.filter (·.kind == .missingEndTag) = [] :=
    List.filter_eq_nil_iff.mpr fun f hf => by simpa using (neutral f hf).1
  have noInvalid : faults.filter (·.kind == .invalidEndTag) = [] :=
    List.filter_eq_nil_iff.mpr fun f hf => by simpa using (neutral f hf).2
  simp only [tally, List.filter_append, noMissing, noInvalid, List.append_nil]

theorem tally_push (n : Node) : (b.push n).tally = b.tally := by
  unfold push
  split
  · rfl
  · next opened => simp only [tally, opened, List.map_cons]

theorem tally_append (n : Node) (span : Span) : (b.append n span).tally = b.tally := by
  unfold append
  dsimp only
  split
  · rw [tally_push]
    refine tally_met b fun f hf => ?_
    obtain rfl := List.mem_singleton.mp hf
    exact ⟨nofun, nofun⟩
  · exact tally_push b n

theorem tally_flush (o : Options) : (b.flush o).tally = b.tally := by
  unfold flush
  dsimp only
  split
  · rfl
  · exact tally_push _ _

theorem tally_closeInnermost (stop : Position) :
    (b.closeInnermost stop).tally = { b.tally with opened := b.tally.opened.tail } := by
  unfold closeInnermost
  split
  · next opened => simp only [tally, opened, List.map_nil, List.tail_nil]
  · next opened =>
    rw [tally_append]
    simp only [tally, opened, List.map_cons, List.tail_cons]

theorem tally_report_missing (span : Span) :
    (b.report .missingEndTag span).tally =
      { b.tally with missing := b.tally.missing ++ [span.start] } := by
  simp [report, tally]

theorem tally_report_invalid (span : Span) :
    (b.report .invalidEndTag span).tally = { b.tally with invalid := b.tally.invalid + 1 } := by
  simp [report, tally]

theorem tally_closeMissing (stop : Position) (n : Nat) :
    (closeMissing stop n b).tally =
      { b.tally with
        opened := b.tally.opened.drop n
        missing := b.tally.missing ++ (b.tally.opened.take n).map (·.2) } := by
  induction n generalizing b with
  | zero => simp [closeMissing]
  | succ n ih =>
    unfold closeMissing
    split
    · next opened => simp [tally, opened]
    · next e outer opened =>
      rw [ih, tally_closeInnermost, tally_report_missing]
      simp [tally, opened]

theorem tally_closeElement (name : String) (span : Span) :
    (b.closeElement name span).tally = b.tally.close name := by
  have found : b.tally.opened.findIdx? (Text.sameIgnoringCase ·.1 name) =
      b.opened.findIdx? (Text.sameIgnoringCase ·.name name) := List.findIdx?_map ..
  unfold closeElement Tally.close
  rw [found]
  cases b.opened.findIdx? (Text.sameIgnoringCase ·.name name) with
  | none => exact tally_report_invalid b span
  | some inner =>
    dsimp only
    rw [tally_closeInnermost, tally_closeMissing, List.tail_drop]

theorem kind_of_read {name : String} {value : Option String} {kind : FaultKind}
    (failed : Directive.read name value = .error kind) :
    kind = .forNoExpression ∨ kind = .forMalformedExpression ∨ kind = .ifNoExpression := by
  unfold Directive.read at failed
  dsimp only at failed
  split at failed
  · split at failed
    · cases failed
      exact .inl rfl
    · next v _ =>
      cases loop : Directive.ofLoop? v with
      | none =>
        rw [loop] at failed
        cases failed
        exact .inr (.inl rfl)
      | some d =>
        rw [loop] at failed
        cases failed
  · split at failed <;> cases failed
    exact .inr (.inr rfl)

theorem kind_of_mem_directiveFaults {tag : Tag} {f : Fault} (mem : f ∈ directiveFaults tag) :
    f.kind = .forNoExpression ∨ f.kind = .forMalformedExpression ∨ f.kind = .ifNoExpression := by
  obtain ⟨a, -, read⟩ := List.mem_filterMap.mp mem
  split at read
  · split at read
    · next failed =>
      obtain rfl := Option.some.inj read
      exact kind_of_read failed
    · cases read
  · cases read

theorem neutral_directiveFaults (tag : Tag) :
    ∀ f ∈ directiveFaults tag, f.kind ≠ .missingEndTag ∧ f.kind ≠ .invalidEndTag := by
  intro f mem
  rcases kind_of_mem_directiveFaults mem with kind | kind | kind <;> rw [kind] <;>
    exact ⟨nofun, nofun⟩

theorem tally_openElement (o : Options) (tag : Tag) (span : Span) :
    (b.openElement o tag span).tally =
      if tag.opens then { b.tally with opened := (tag.name, span.start) :: b.tally.opened }
      else b.tally := by
  have met := tally_met b (neutral_directiveFaults tag)
  unfold openElement
  dsimp only
  split
  · rw [← met]
    rfl
  · rw [tally_append, met]

/-- Building the tree keeps the tally. -/
theorem tally_step (o : Options) {l : Lexeme} (lexical : ∀ f ∈ l.faults, f.kind.isLexical = true) :
    (step o b l).tally = b.tally.step l := by
  have met : tally { b with faults := b.faults ++ l.faults } = b.tally := by
    refine tally_met b fun f hf => ?_
    have kind := lexical f hf
    constructor <;> intro same <;> rw [same] at kind <;> cases kind
  unfold step Tally.step
  dsimp only
  cases l.token with
  | startTag tag =>
    dsimp only
    rw [tally_openElement, tally_flush, met]
  | endTag name =>
    dsimp only
    rw [tally_closeElement, tally_flush, met]
  | text t => exact met
  | interpolation t => exact met
  | comment s => exact met

theorem tally_run (o : Options) {ls : List Lexeme}
    (lexical : ∀ l ∈ ls, ∀ f ∈ l.faults, f.kind.isLexical = true) :
    (ls.foldl (step o) b).tally = ls.foldl Tally.step b.tally := by
  induction ls generalizing b with
  | nil => rfl
  | cons l ls ih =>
    rw [List.foldl_cons, List.foldl_cons, ← tally_step b o (lexical l List.mem_cons_self)]
    exact ih _ fun k hk => lexical k (List.mem_cons_of_mem l hk)

theorem tally_finish (o : Options) (stop : Position) :
    (b.finish o stop).tally = b.tally.finish := by
  have whole : (b.flush o).opened.length = (b.flush o).tally.opened.length :=
    (List.length_map _).symm
  unfold finish Tally.finish
  dsimp only
  rw [tally_closeMissing, whole, List.drop_length, List.take_length, tally_flush]

theorem opened_finish (o : Options) (stop : Position) : (b.finish o stop).opened = [] := by
  have none : (b.finish o stop).tally.opened = [] := by
    rw [tally_finish]
    rfl
  exact List.map_eq_nil_iff.mp none

end Builder

/-- A start tag counts where it leaves an element open, an end tag always. -/
theorem Tally.step_conserves (t : Tally) (l : Lexeme) :
    (t.step l).opened.length + (t.step l).missing.length + (endTags [l]).length + t.invalid =
      t.opened.length + t.missing.length + (openTags [l]).length + (t.step l).invalid := by
  unfold step openTags endTags
  cases token : l.token with
  | startTag tag =>
    cases waits : tag.opens <;> simp [token, waits]
    omega
  | endTag name =>
    simp only [close]
    split
    · simp [token]
      omega
    · next inner found =>
      have bound := (List.findIdx?_eq_some_iff_findIdx_eq.mp found).1
      simp [token]
      omega
  | text t => simp [token]
  | interpolation t => simp [token]
  | comment s => simp [token]

/-- The open tags and the end tags that are read, less those that are reported, make the difference
in what is open. -/
theorem Tally.run_conserves (t : Tally) (ls : List Lexeme) :
    (ls.foldl step t).opened.length + (ls.foldl step t).missing.length + (endTags ls).length +
        t.invalid =
      t.opened.length + t.missing.length + (openTags ls).length + (ls.foldl step t).invalid := by
  induction ls generalizing t with
  | nil => rfl
  | cons l ls ih =>
    have first := t.step_conserves l
    have rest := ih (t.step l)
    have opens : (openTags (l :: ls)).length = (openTags [l]).length + (openTags ls).length := by
      rw [← List.length_append, openTags, openTags, openTags, ← List.filter_append,
        List.singleton_append]
    have ends : (endTags (l :: ls)).length = (endTags [l]).length + (endTags ls).length := by
      rw [← List.length_append, endTags, endTags, endTags, ← List.filter_append,
        List.singleton_append]
    rw [List.foldl_cons, opens, ends]
    omega

namespace Nests

variable {opened : List String} {rest : List Token}

theorem nil_iff : Nests opened [] ↔ opened = [] := by
  constructor
  · intro nests
    cases nests
    rfl
  · rintro rfl
    exact .done

theorem startTag_iff {tag : Tag} (waits : tag.opens = true) :
    Nests opened (.startTag tag :: rest) ↔ Nests (tag.name :: opened) rest := by
  refine ⟨fun nests => ?_, .opens waits⟩
  cases nests with
  | opens _ nests => exact nests
  | other noTag =>
    rw [noTag tag rfl] at waits
    cases waits

theorem endTag_iff {name : String} : Nests opened (.endTag name :: rest) ↔
    ∃ inner outer, opened = inner :: outer ∧ Text.sameIgnoringCase inner name = true ∧
      Nests outer rest := by
  constructor
  · intro nests
    cases nests with
    | ends same nests => exact ⟨_, _, rfl, same, nests⟩
    | other _ noEnd => exact absurd rfl (noEnd name)
  · rintro ⟨inner, outer, rfl, same, nests⟩
    exact .ends same nests

theorem other_iff {token : Token} (noTag : ∀ tag, token = .startTag tag → tag.opens = false)
    (noEnd : ∀ name, token ≠ .endTag name) : Nests opened (token :: rest) ↔ Nests opened rest := by
  refine ⟨fun nests => ?_, .other noTag noEnd⟩
  cases nests with
  | opens waits =>
    rw [noTag _ rfl] at waits
    cases waits
  | ends => exact absurd rfl (noEnd _)
  | other _ _ nests => exact nests

end Nests

namespace Tally

variable (t : Tally)

/-- Where the elements begin that lack end tags or are still open. -/
def starts : List Position := t.missing ++ t.opened.map (·.2)

theorem starts_step (l : Lexeme) :
    (t.step l).starts.Subperm (t.starts ++ (openTags [l]).map (·.span.start)) := by
  unfold step openTags
  cases token : l.token with
  | startTag tag =>
    cases waits : tag.opens with
    | true =>
      simp only [if_true, starts, List.map_cons, List.filter_cons, token, waits, List.filter_nil,
        List.map_nil]
      exact (List.perm_middle.trans (List.perm_append_singleton _ _).symm).subperm
    | false => simpa [token, waits] using List.Subperm.refl t.starts
  | endTag name =>
    have kept : (t.close name).starts.Subperm t.starts := by
      unfold close starts
      split
      · exact List.Subperm.refl _
      · next inner _ =>
        have left : (t.opened.take inner ++ t.opened.drop (inner + 1)).Sublist t.opened := by
          have later : (t.opened.drop (inner + 1)).Sublist (t.opened.drop inner) :=
            List.drop_sublist_drop_left _ (Nat.le_succ inner)
          have parts := later.append_left (t.opened.take inner)
          rwa [List.take_append_drop] at parts
        have starts := (left.map (·.2)).append_left t.missing
        rw [List.map_append, ← List.append_assoc] at starts
        exact starts.subperm
    simpa [token] using kept
  | text s => simpa [token] using List.Subperm.refl t.starts
  | interpolation s => simpa [token] using List.Subperm.refl t.starts
  | comment s => simpa [token] using List.Subperm.refl t.starts

theorem starts_run (ls : List Lexeme) :
    (ls.foldl step t).starts.Subperm (t.starts ++ (openTags ls).map (·.span.start)) := by
  induction ls generalizing t with
  | nil => exact (List.append_nil _).symm ▸ List.Subperm.refl _
  | cons l ls ih =>
    have first := (t.starts_step l).append (List.Subperm.refl ((openTags ls).map (·.span.start)))
    have opens : openTags (l :: ls) = openTags [l] ++ openTags ls :=
      List.filter_append [l] ls
    rw [opens, List.map_append, ← List.append_assoc]
    exact (ih _).trans first

/-- Nothing is reported, then and later, where the tags are well nested. -/
theorem nests_step (l : Lexeme) (rest : List Token) :
    ((t.step l).missing = [] ∧ (t.step l).invalid = 0 ∧
      Nests ((t.step l).opened.map (·.1)) rest) ↔
    t.missing = [] ∧ t.invalid = 0 ∧ Nests (t.opened.map (·.1)) (l.token :: rest) := by
  unfold step
  cases l.token with
  | startTag tag =>
    dsimp only
    split
    · next waits => rw [Nests.startTag_iff waits, List.map_cons]
    · next alone =>
      rw [Nests.other_iff]
      · intro other same
        cases same
        simpa using alone
      · nofun
  | endTag name =>
    dsimp only
    rw [Nests.endTag_iff]
    unfold close
    cases opened : t.opened with
    | nil => simp
    | cons e outer =>
      rw [List.findIdx?_cons]
      cases same : Text.sameIgnoringCase e.1 name with
      | true => simp [same]
      | false =>
        cases outer.findIdx? (Text.sameIgnoringCase ·.1 name) <;> simp [same]
  | text s => rw [Nests.other_iff] <;> nofun
  | interpolation s => rw [Nests.other_iff] <;> nofun
  | comment s => rw [Nests.other_iff] <;> nofun

theorem nests_run (ls : List Lexeme) :
    ((ls.foldl step t).finish.missing = [] ∧ (ls.foldl step t).finish.invalid = 0) ↔
      t.missing = [] ∧ t.invalid = 0 ∧ Nests (t.opened.map (·.1)) (ls.map (·.token)) := by
  induction ls generalizing t with
  | nil =>
    rw [List.map_nil, Nests.nil_iff, List.map_eq_nil_iff]
    show t.missing ++ t.opened.map (·.2) = [] ∧ t.invalid = 0 ↔ _
    rw [List.append_eq_nil_iff, List.map_eq_nil_iff]
    tauto
  | cons l ls ih =>
    rw [List.foldl_cons, ih, List.map_cons]
    exact t.nests_step l _

end Tally

theorem tally_built (o : Options) (source : String) :
    (built o source).tally =
      (((Dialect.template o.delimiters).lexemes source).foldl Tally.step ⟨[], [], 0⟩).finish := by
  have run := Builder.tally_run {} o fun l
    (listed : l ∈ (Dialect.template o.delimiters).lexemes source) =>
      Markup.lexical_of_mem_lexemes listed
  unfold built
  dsimp only
  rw [Builder.tally_finish, run]
  rfl

/-- No two open tags begin at one place. -/
theorem distinct_openTags (d : Dialect) (source : String) :
    ((openTags (d.lexemes source)).map (·.span.start)).Nodup := by
  have ordered := (Markup.lexemesFrom_tile d .data .start [] source.toList rfl rfl).1.ordered
  rw [List.pairwise_map] at ordered
  rw [List.nodup_iff_pairwise_ne, List.pairwise_map]
  refine (ordered.sublist List.filter_sublist).imp fun before same => ?_
  rw [same] at before
  exact Nat.lt_irrefl _ before

/-- Balance is judged exactly. The tags left open and the end tags differ by as much as the reports
of missing end tags and of end tags at fault; no two missing end tags are reported of one open tag;
and nothing is reported just where the tags are well nested. -/
theorem tags_balance (o : Options) (source : String) :
    let ls := (Dialect.template o.delimiters).lexemes source
    let missing := (parse o source).faults.filter (·.kind == .missingEndTag)
    let invalid := (parse o source).faults.filter (·.kind == .invalidEndTag)
    ((openTags ls).length : Int) - missing.length = (endTags ls).length - invalid.length ∧
    ((missing.map (·.span.start)).Nodup ∧
      ∀ f ∈ missing, ∃ l ∈ openTags ls, f.span.start = l.span.start) ∧
    (missing = [] ∧ invalid = [] ↔ Nests [] (ls.map (·.token))) := by
  intro ls missing invalid
  have tally := tally_built o source
  have starts : missing.map (·.span.start) = (ls.foldl Tally.step ⟨[], [], 0⟩).starts :=
    congrArg Tally.missing tally
  have count : invalid.length = (ls.foldl Tally.step ⟨[], [], 0⟩).invalid :=
    congrArg Tally.invalid tally
  have opened := Tally.starts_run ⟨[], [], 0⟩ ls
  rw [← starts] at opened
  refine ⟨?_, ⟨?_, ?_⟩, ?_⟩
  · have conserved := Tally.run_conserves ⟨[], [], 0⟩ ls
    have length := congrArg List.length starts
    rw [Tally.starts, List.length_map, List.length_append, List.length_map] at length
    simp only [List.length_nil] at conserved
    omega
  · obtain ⟨some, same, part⟩ := opened
    exact same.nodup_iff.mp ((distinct_openTags _ source).sublist part)
  · intro f hf
    have listed := opened.subset (List.mem_map_of_mem hf)
    obtain ⟨l, hl, same⟩ := List.mem_map.mp listed
    exact ⟨l, hl, same.symm⟩
  · have nests := Tally.nests_run ⟨[], [], 0⟩ ls
    rw [← List.map_eq_nil_iff (f := (·.span.start)) (l := missing), starts,
      ← List.length_eq_zero_iff (l := invalid), count]
    refine nests.trans ⟨fun h => h.2.2, fun h => ⟨rfl, rfl, h⟩⟩

end ComponentLoader.Template
