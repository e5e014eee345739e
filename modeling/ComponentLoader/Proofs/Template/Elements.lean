import ComponentLoader.Proofs.Markup.StartTags
import ComponentLoader.Proofs.Template.EventModifiers
import ComponentLoader.Proofs.Template.Spelling
import Mathlib.Data.List.Forall2
import Mathlib.Data.List.Nodup

/-! An element holds every attribute of its start tag once: in its properties or its events,
in the order of the tag, or in its directives. No directive is put over another, since no
two attributes of a tag have one name. -/
namespace ComponentLoader

theorem exists_of_mem_right {α β : Type} {R : α → β → Prop} {xs : List α} {ys : List β} {y : β}
    (h : List.Forall₂ R xs ys) (hy : y ∈ ys) : ∃ x, R x y := by
  induction h with
  | nil => cases hy
  | cons first rest ih =>
    cases hy with
    | head => exact ⟨_, first⟩
    | tail _ hy => exact ih hy

namespace Template

open Markup (Attribute Delimiters Tag)

/-- What the value of an attribute is read as: its text, and truth where there is none. -/
inductive Expr.ValueOf (d : Delimiters) : Option String → Expr → Prop
  | missing : ValueOf d none (.bool true)
  | text {value : String} {run : List Piece} {e : Expr} (divides : Divides d value.toList run)
      (conveys : e.Conveys d run) : ValueOf d (some value) e

/-- What a directive says: a loop its parts, and any other its text without the white space around
it. One without a text says nothing, nor does one that should be a loop and is not. -/
inductive Directive.Conveys : String → Option String → Directive → Prop
  | loop {text : String} {p : Loop} (accepted : p.Accepted)
      (spells : p.Spells (Text.trim text.toList)) : Conveys "for" (some text) p.directive
  | noLoop {value : Option String} (absent : ∀ text ∈ value, ∀ p : Loop, p.Accepted →
      ¬ p.Spells (Text.trim text.toList)) : Conveys "for" value {}
  | code {name text : String} (other : name ≠ "for") (written : Text.trim text.toList ≠ []) :
    Conveys name (some text) { value := some (.raw (String.ofList (Text.trim text.toList))) }
  | bare {name : String} {value : Option String} (other : name ≠ "for")
      (blank : ∀ text ∈ value, Text.AllSpace text.toList) : Conveys name value {}

/-- An attribute whose name begins neither as that of a directive nor as that of an event is the
property of its name. -/
structure IsProperty (d : Delimiters) (a : Attribute) (p : Property) : Prop where
  plain : ∀ name, a.name ≠ "s-" ++ name ∧ a.name ≠ "on-" ++ name
  read : p = .read d a.name a.value
  name : p.name = a.name
  value : p.expr.ValueOf d a.value
  unmarked : p.merged = false

structure IsEvent (a : Attribute) (e : Event) : Prop where
  name : a.name = "on-" ++ e.name
  read : e = .read e.name a.value
  handler : ∃ code, e.expr = .raw (String.ofList code) ∧
    Event.Handles ["native", "capture"] (Text.trim (a.value.getD "").toList) e.modifiers code

structure IsDirective (a : Attribute) (entry : String × Directive) : Prop where
  name : a.name = "s-" ++ entry.1
  read : entry.2 = (Directive.read entry.1 a.value).toOption.getD {}
  conveys : entry.2.Conveys entry.1 a.value

/-- The node is an element of the tag's name without children, and each attribute of the tag is one
of its properties, its events or its directives. -/
structure Node.Tells (d : Delimiters) (tag : Tag) (n : Node) : Prop where
  name : n.tag = some tag.name
  text : n.text = none
  children : n.children = []
  attributes : ∃ properties events directives : List Attribute, ∃ entries,
    (properties ++ events ++ directives).Perm tag.attributes ∧
    properties.Sublist tag.attributes ∧ events.Sublist tag.attributes ∧
    List.Forall₂ (IsProperty d) properties n.properties ∧
    List.Forall₂ IsEvent events n.events ∧
    List.Forall₂ IsDirective directives entries ∧ entries.Perm n.directives.entries

namespace Role

variable {s name : String}

theorem eq_of_ofName_directive (h : ofName s = .directive name) : s = "s-" ++ name := by
  unfold ofName at h
  split at h
  · next rest stripped =>
    cases h
    apply String.toList_inj.mp
    rw [Text.stripStart_eq_some_iff.mp stripped, String.toList_append]
    exact congrArg _ String.toList_ofList.symm
  · split at h <;> cases h

theorem eq_of_ofName_event (h : ofName s = .event name) : s = "on-" ++ name := by
  unfold ofName at h
  split at h
  · cases h
  · split at h
    · next rest stripped =>
      cases h
      apply String.toList_inj.mp
      rw [Text.stripStart_eq_some_iff.mp stripped, String.toList_append]
      exact congrArg _ String.toList_ofList.symm
    · cases h

theorem ne_of_ofName_property (h : ofName s = .property) (name : String) :
    s ≠ "s-" ++ name ∧ s ≠ "on-" ++ name := by
  have stripped (p : String) : Text.stripStart p.toList (p ++ name).toList = some name.toList :=
    Text.stripStart_eq_some_iff.mpr String.toList_append
  unfold ofName at h
  constructor
  · rintro rfl
    rw [stripped] at h
    cases h
  · rintro rfl
    split at h
    · cases h
    · rw [stripped] at h
      cases h

end Role

theorem Directive.read_for (value : Option String) :
    (read "for" value).toOption.getD {} =
      (value.bind fun text => ofLoop? (Text.trim text.toList)).getD {} := by
  cases value with
  | none => rfl
  | some text =>
    simp only [read, if_true, Option.map_some, Option.bind_some]
    cases trimmed : Text.trim text.toList with
    | nil => rfl
    | cons c s =>
      have kept : (some (c :: s)).filter (!·.isEmpty) = some (c :: s) := rfl
      rw [kept]
      dsimp only
      cases ofLoop? (c :: s) <;> rfl

theorem Directive.read_of_ne_for {name : String} (other : name ≠ "for") (value : Option String) :
    (read name value).toOption.getD {} =
      { value := ((value.map fun text => Text.trim text.toList).filter (!·.isEmpty)).map
          fun s => .raw (String.ofList s) } := by
  simp only [read, if_neg other]
  split
  · next missing =>
    rw [missing.2]
    rfl
  · rfl

theorem Directive.conveys_read (name : String) (value : Option String) :
    ((read name value).toOption.getD {}).Conveys name value := by
  by_cases loop : name = "for"
  · subst loop
    rw [read_for]
    cases found : value.bind fun text => ofLoop? (Text.trim text.toList) with
    | none =>
      refine .noLoop fun text given p accepted spells => ?_
      have made := Loop.ofLoop?_iff_spells.mpr ⟨p, rfl, accepted, spells⟩
      rw [Option.mem_def.mp given, Option.bind_some, made] at found
      cases found
    | some directive =>
      obtain ⟨text, rfl, made⟩ := Option.bind_eq_some_iff.mp found
      obtain ⟨p, rfl, accepted, spells⟩ := Loop.ofLoop?_iff_spells.mp made
      exact .loop accepted spells
  · rw [read_of_ne_for loop]
    cases value with
    | none => exact .bare loop nofun
    | some text =>
      rw [Option.map_some]
      by_cases blank : Text.trim text.toList = []
      · have bare : Conveys name (some text) {} := by
          refine .bare loop fun other given => ?_
          obtain rfl := Option.some.inj given
          rwa [Text.trim_eq_nil_iff] at blank
        rw [blank]
        exact bare
      · have kept : (some (Text.trim text.toList)).filter (!·.isEmpty) =
            some (Text.trim text.toList) := by
          simp [Option.filter_some, blank]
        rw [kept]
        exact .code loop blank

theorem isProperty_read (d : Delimiters) {a : Attribute} (role : Role.ofName a.name = .property) :
    IsProperty d a (.read d a.name a.value) where
  plain := Role.ne_of_ofName_property role
  read := rfl
  name := rfl
  value := by
    rw [Property.read]
    cases a.value with
    | none => exact .missing
    | some value => exact .text (divides_pieces d value.toList) (Expr.conveys_ofPieces d _)
  unmarked := rfl

theorem isEvent_read {a : Attribute} {name : String} (role : Role.ofName a.name = .event name) :
    IsEvent a (.read name a.value) where
  name := Role.eq_of_ofName_event role
  read := rfl
  handler := Event.handles_read name a.value

theorem isDirective_read {a : Attribute} {name : String}
    (role : Role.ofName a.name = .directive name) :
    IsDirective a (name, (Directive.read name a.value).toOption.getD {}) where
  name := Role.eq_of_ofName_directive role
  read := rfl
  conveys := Directive.conveys_read name a.value

/-- The attributes that are read as properties, those that are read as events and those that are
read as directives are all attributes. -/
theorem exists_roles (d : Delimiters) (as : List Attribute) :
    ∃ properties events directives : List Attribute,
      (properties ++ events ++ directives).Perm as ∧ properties.Sublist as ∧ events.Sublist as ∧
      List.Forall₂ (IsProperty d) properties (as.filterMap fun a =>
        match Role.ofName a.name with
        | .property => some (.read d a.name a.value)
        | _ => none) ∧
      List.Forall₂ IsEvent events (as.filterMap fun a =>
        match Role.ofName a.name with
        | .event name => some (.read name a.value)
        | _ => none) ∧
      List.Forall₂ IsDirective directives (as.filterMap fun a =>
        match Role.ofName a.name with
        | .directive name => some (name, (Directive.read name a.value).toOption.getD {})
        | _ => none) := by
  induction as with
  | nil => exact ⟨[], [], [], .refl _, .refl _, .refl _, .nil, .nil, .nil⟩
  | cons a as ih =>
    obtain ⟨ps, es, ds, all, inOrder, inOrder', properties, events, directives⟩ := ih
    cases role : Role.ofName a.name with
    | directive name =>
      refine ⟨ps, es, a :: ds, ?_, inOrder.cons a, inOrder'.cons a, ?_⟩
      · exact List.perm_middle.trans (all.cons a)
      · simp only [List.filterMap_cons, role]
        exact ⟨properties, events, .cons (isDirective_read role) directives⟩
    | event name =>
      refine ⟨ps, a :: es, ds, ?_, inOrder.cons a, inOrder'.cons_cons a, ?_⟩
      · rw [List.append_assoc, List.cons_append] at *
        exact List.perm_middle.trans (all.cons a)
      · simp only [List.filterMap_cons, role]
        exact ⟨properties, .cons (isEvent_read role) events, directives⟩
    | property =>
      refine ⟨a :: ps, es, ds, all.cons a, inOrder.cons_cons a, inOrder'.cons a, ?_⟩
      simp only [List.filterMap_cons, role]
      exact ⟨.cons (isProperty_read d role) properties, events, directives⟩

theorem insertEntry_perm {name : String} {entries : List (String × Directive)}
    (fresh : name ∉ entries.map (·.1)) (d : Directive) :
    (insertEntry name d entries).Perm ((name, d) :: entries) := by
  induction entries with
  | nil => exact .refl _
  | cons e entries ih =>
    rw [List.map_cons, List.mem_cons, not_or] at fresh
    rw [insertEntry, if_neg fresh.1]
    split
    · exact .refl _
    · exact ((ih fresh.2).cons e).trans (.swap (name, d) e entries)

namespace Directives

theorem entries_foldl_insert {entries : List (String × Directive)} {ds : Directives}
    (distinct : ((entries ++ ds.entries).map (·.1)).Nodup) :
    (entries.foldl (fun ds (name, d) => ds.insert name d) ds).entries.Perm
      (entries ++ ds.entries) := by
  induction entries generalizing ds with
  | nil => exact .refl _
  | cons e entries ih =>
    obtain ⟨fresh, rest⟩ := List.nodup_cons.mp distinct
    have placed : (ds.insert e.1 e.2).entries.Perm (e :: ds.entries) := by
      refine insertEntry_perm (fun listed => fresh ?_) e.2
      show e.1 ∈ (entries ++ ds.entries).map (·.1)
      rw [List.map_append]
      exact List.mem_append_right _ listed
    have moved : (entries ++ (ds.insert e.1 e.2).entries).Perm ((e :: entries) ++ ds.entries) :=
      (placed.append_left entries).trans List.perm_middle
    exact (ih ((moved.map _).nodup_iff.mpr distinct)).trans moved

/-- Of entries with different names none is put over another. -/
theorem entries_ofList {entries : List (String × Directive)}
    (distinct : (entries.map (·.1)).Nodup) : (ofList entries).entries.Perm entries := by
  have empty : entries ++ Directives.empty.entries = entries := List.append_nil entries
  have placed : (ofList entries).entries.Perm (entries ++ Directives.empty.entries) :=
    entries_foldl_insert (by rwa [empty])
  rwa [empty] at placed

end Directives

/-- Attributes with different names are directives with different names. -/
theorem distinct_of_isDirective {as : List Attribute} {entries : List (String × Directive)}
    (read : List.Forall₂ IsDirective as entries) (distinct : (as.map (·.name)).Nodup) :
    (entries.map (·.1)).Nodup := by
  have names : as.map (·.name) = (entries.map (·.1)).map ("s-" ++ ·) := by
    induction read with
    | nil => rfl
    | cons own rest ih =>
      simp only [List.map_cons]
      rw [own.name, ih (List.nodup_cons.mp distinct).2]
  rw [names] at distinct
  exact List.Nodup.of_map _ distinct

/-- The element of a start tag holds each of its attributes once. -/
theorem Node.tells_ofTag (d : Delimiters) {tag : Tag} (proper : tag.Proper) :
    (Node.ofTag d tag).Tells d tag where
  name := rfl
  text := rfl
  children := rfl
  attributes := by
    obtain ⟨ps, es, ds, all, inOrder, inOrder', properties, events, directives⟩ :=
      exists_roles d tag.attributes
    refine ⟨ps, es, ds, _, all, inOrder, inOrder', properties, events, directives, ?_⟩
    have distinct := (all.map (·.name)).nodup_iff.mpr proper.distinct
    rw [List.map_append] at distinct
    have own := distinct_of_isDirective directives (List.nodup_append.mp distinct).2.1
    exact (Directives.entries_ofList own).symm

end Template

end ComponentLoader
