import ComponentLoader.Proofs.Template.Elements
import ComponentLoader.Proofs.Template.Unpacking

/-! What filling does to the root of a component. The root has no two properties of one name, since
its start tag has no two attributes of one name. So marking the first property of a name marks all
of that name, and a name that is added is there once. -/
namespace ComponentLoader.Template

open Markup (Attribute Delimiters Tag)

/-- In a list of different keys the first item of a key is all that has it. -/
theorem modify_findIdx?_eq_map {α β : Type} [DecidableEq β] {key : α → β} {k : β} {items : List α}
    {i : Nat} (distinct : (items.map key).Nodup) (f : α → α)
    (found : items.findIdx? (key · == k) = some i) :
    items.modify i f = items.map fun a => if key a = k then f a else a := by
  induction items generalizing i with
  | nil => cases found
  | cons a items ih =>
    obtain ⟨fresh, distinct⟩ := List.nodup_cons.mp distinct
    rw [List.findIdx?_cons] at found
    by_cases here : key a = k
    · have others : items.map (fun b => if key b = k then f b else b) = items := by
        refine (List.map_congr_left fun b hb => if_neg fun same => fresh ?_).trans (List.map_id _)
        rw [here, ← same]
        exact List.mem_map_of_mem hb
      simp only [here, BEq.rfl, if_true, Option.some.injEq] at found
      rw [← found, List.map_cons, others, if_pos here]
      rfl
    · simp only [beq_iff_eq, here, if_false] at found
      obtain ⟨j, later, rfl⟩ := Option.map_eq_some_iff.mp found
      rw [List.modify_succ_cons, ih distinct later, List.map_cons, if_neg here]

namespace Property

def ofEntry (entry : String × Option String) : Property :=
  { name := entry.1, expr := .interpolation entry.1 entry.2.toList }

def markedIn (names : List String) (p : Property) : Property :=
  { p with merged := p.merged || decide (p.name ∈ names) }

theorem markedIn_of_not_mem {names : List String} {p : Property} (absent : p.name ∉ names) :
    p.markedIn names = p := by
  rw [markedIn, decide_eq_false absent, Bool.or_false]

theorem markedIn_singleton (name : String) (p : Property) :
    p.markedIn [name] = if p.name = name then { p with merged := true } else p := by
  split
  · next same => simp [markedIn, same]
  · next other => exact markedIn_of_not_mem (by simpa using other)

theorem markedIn_cons (name : String) (names : List String) (p : Property) :
    (p.markedIn [name]).markedIn names = p.markedIn (name :: names) := by
  simp only [markedIn, List.mem_cons, List.not_mem_nil, or_false, Bool.decide_or, Bool.or_assoc]

end Property

/-- The properties marked where they have the name of an entry, and after them one for each entry of
which there is none. -/
def filledIn (entries : List (String × Option String)) (ps : List Property) : List Property :=
  ps.map (.markedIn (entries.map (·.1))) ++
    (entries.filter (·.1 ∉ ps.map (·.name))).map .ofEntry

variable {entries : List (String × Option String)} {e : String × Option String}
  {ps : List Property} {n : Node}

theorem names_filledIn (entries : List (String × Option String)) (ps : List Property) :
    (filledIn entries ps).map (·.name) =
      ps.map (·.name) ++ (entries.map (·.1)).filter (· ∉ ps.map (·.name)) := by
  rw [filledIn, List.map_append, List.map_map, List.map_map, List.filter_map]
  rfl

theorem distinct_filledIn (distinct : (ps.map (·.name)).Nodup)
    (different : (entries.map (·.1)).Nodup) : ((filledIn entries ps).map (·.name)).Nodup := by
  rw [names_filledIn]
  refine List.nodup_append.mpr ⟨distinct, different.filter _, ?_⟩
  rintro name there other added rfl
  exact of_decide_eq_true (List.mem_filter.mp added).2 there

theorem mem_names_filledIn {name : String} (ps : List Property)
    (listed : name ∈ entries.map (·.1)) : name ∈ (filledIn entries ps).map (·.name) := by
  rw [names_filledIn, List.mem_append, List.mem_filter]
  by_cases there : name ∈ ps.map (·.name)
  · exact .inl there
  · exact .inr ⟨listed, decide_eq_true there⟩

theorem filledIn_nil (ps : List Property) : filledIn [] ps = ps := by
  rw [filledIn, List.filter_nil, List.map_nil, List.map_nil, List.append_nil]
  exact (List.map_congr_left fun p _ => Property.markedIn_of_not_mem List.not_mem_nil).trans
    (List.map_id ps)

theorem filledIn_of_mem (there : e.1 ∈ ps.map (·.name)) :
    filledIn [e] ps = ps.map fun p => if p.name = e.1 then { p with merged := true } else p := by
  have none : [e].filter (·.1 ∉ ps.map (·.name)) = [] :=
    List.filter_cons_of_neg fun h => of_decide_eq_true h there
  rw [filledIn, none, List.map_nil, List.append_nil]
  exact List.map_congr_left fun p _ => Property.markedIn_singleton e.1 p

theorem filledIn_of_not_mem (absent : e.1 ∉ ps.map (·.name)) :
    filledIn [e] ps = ps ++ [.ofEntry e] := by
  have one : [e].filter (·.1 ∉ ps.map (·.name)) = [e] :=
    List.filter_cons_of_pos (decide_eq_true absent)
  have unmarked : ps.map (.markedIn [e.1]) = ps := by
    refine (List.map_congr_left fun p hp => ?_).trans (List.map_id ps)
    refine Property.markedIn_of_not_mem fun same => absent ?_
    rw [← List.mem_singleton.mp same]
    exact List.mem_map_of_mem hp
  rw [filledIn, one, List.map_singleton, unmarked]
  rfl

/-- Filling in one entry after the other fills in all of them. -/
theorem filledIn_cons (fresh : e.1 ∉ entries.map (·.1)) (ps : List Property) :
    filledIn entries (filledIn [e] ps) = filledIn (e :: entries) ps := by
  have marked : (ps.map (Property.markedIn [e.1])).map (Property.markedIn (entries.map (·.1))) =
      ps.map (.markedIn ((e :: entries).map (·.1))) := by
    rw [List.map_map]
    exact List.map_congr_left fun p _ => Property.markedIn_cons e.1 _ p
  have added : (([e].filter (·.1 ∉ ps.map (·.name))).map Property.ofEntry).map
        (Property.markedIn (entries.map (·.1))) =
      ([e].filter (·.1 ∉ ps.map (·.name))).map Property.ofEntry := by
    rw [List.map_map]
    refine List.map_congr_left fun k hk => ?_
    obtain rfl := List.mem_singleton.mp (List.mem_filter.mp hk).1
    exact Property.markedIn_of_not_mem fresh
  have missing : entries.filter (·.1 ∉ (filledIn [e] ps).map (·.name)) =
      entries.filter (·.1 ∉ ps.map (·.name)) := by
    refine List.filter_congr fun k hk => decide_eq_decide.mpr (not_congr ?_)
    have other : k.1 ≠ e.1 := fun same => fresh (same ▸ List.mem_map_of_mem hk)
    rw [names_filledIn, List.mem_append, List.mem_filter, List.map_singleton, List.mem_singleton]
    exact or_iff_left fun h => other h.1
  have both : (e :: entries).filter (·.1 ∉ ps.map (·.name)) =
      [e].filter (·.1 ∉ ps.map (·.name)) ++ entries.filter (·.1 ∉ ps.map (·.name)) :=
    List.filter_append [e] entries
  rw [filledIn, missing, filledIn, List.map_append, List.map_singleton, marked, added, filledIn,
    both, List.map_append, List.append_assoc]

namespace Node

theorem properties_fillProperty (distinct : (n.properties.map (·.name)).Nodup)
    (e : String × Option String) :
    (n.fillProperty e.1 e.2).properties = filledIn [e] n.properties := by
  unfold fillProperty
  cases found : n.properties.findIdx? (·.name == e.1) with
  | none =>
    have absent := List.findIdx?_eq_none_iff.mp found
    rw [filledIn_of_not_mem]
    · rfl
    · intro there
      obtain ⟨p, hp, same⟩ := List.mem_map.mp there
      exact absurd same (by simpa using absent p hp)
  | some i =>
    have there : e.1 ∈ n.properties.map (·.name) := by
      obtain ⟨inside, here, -⟩ := List.findIdx?_eq_some_iff_getElem.mp found
      exact List.mem_map.mpr ⟨_, List.getElem_mem inside, beq_iff_eq.mp here⟩
    rw [filledIn_of_mem there]
    exact modify_findIdx?_eq_map distinct _ found

theorem properties_foldl_fillProperty (distinct : (n.properties.map (·.name)).Nodup)
    (different : (entries.map (·.1)).Nodup) :
    (entries.foldl (fun n (name, filter) => n.fillProperty name filter) n).properties =
      filledIn entries n.properties := by
  induction entries generalizing n with
  | nil => exact (filledIn_nil _).symm
  | cons e entries ih =>
    obtain ⟨fresh, different⟩ := List.nodup_cons.mp different
    have first := properties_fillProperty distinct e
    have still : ((n.fillProperty e.1 e.2).properties.map (·.name)).Nodup := by
      rw [first]
      exact distinct_filledIn distinct (by simp)
    rw [List.foldl_cons, ih still different, first, filledIn_cons fresh]

theorem properties_fill (distinct : (n.properties.map (·.name)).Nodup) :
    n.fill.properties = filledIn rootProperties n.properties :=
  properties_foldl_fillProperty distinct (by decide)

/-- A node as it is read: its properties have different names and none is marked. -/
structure Unfilled (n : Node) : Prop where
  distinct : (n.properties.map (·.name)).Nodup
  unmarked : ∀ p ∈ n.properties, p.merged = false

theorem Unfilled.of_properties_eq_nil (none : n.properties = []) : n.Unfilled where
  distinct := by rw [none]; exact List.nodup_nil
  unmarked := by rw [none]; exact nofun

theorem names_of_isProperty {d : Delimiters} {as : List Attribute}
    (read : List.Forall₂ (IsProperty d) as ps) : ps.map (·.name) = as.map (·.name) := by
  induction read with
  | nil => rfl
  | cons own rest ih => rw [List.map_cons, List.map_cons, ih, own.name]

/-- Each property has the name of an attribute of its own. -/
theorem unfilled_ofTag (d : Delimiters) {tag : Tag} (proper : tag.Proper) (children : List Node) :
    Unfilled { ofTag d tag with children } := by
  obtain ⟨as, -, -, -, -, part, -, read, -⟩ := (tells_ofTag d proper).attributes
  constructor
  · show ((ofTag d tag).properties.map (·.name)).Nodup
    rw [names_of_isProperty read]
    exact proper.distinct.sublist (part.map _)
  · intro p listed
    obtain ⟨a, own⟩ := exists_of_mem_right read listed
    exact own.unmarked

/-- The root is an element as it is read, but for its name, or has no properties. -/
theorem unfilled_componentRoot (unfilled : ∀ c ∈ n.children, c.Unfilled) :
    n.componentRoot.Unfilled := by
  obtain ⟨first, root, own⟩ : ∃ first : Node, n.componentRoot =
      (if first.tag = some "template" then { first with tag := none } else first) ∧
      first.Unfilled := by
    unfold componentRoot
    split
    · next c cs children =>
      dsimp only
      split
      · exact ⟨_, rfl, .of_properties_eq_nil rfl⟩
      · exact ⟨c, rfl, unfilled c (children ▸ List.mem_cons_self)⟩
    · exact ⟨_, rfl, .of_properties_eq_nil rfl⟩
  rw [root]
  split
  · exact ⟨own.distinct, own.unmarked⟩
  · exact own

end Node

theorem unfilled_root (o : Options) (source : String) :
    (parse o source).node.componentRoot.Unfilled := by
  have element (tag : Tag) (proper : tag.Proper) (children : List Node) :=
    Node.unfilled_ofTag o.delimiters proper children
  have built := everywhere_built o source (fun _ => .of_properties_eq_nil rfl)
    (fun tag proper _ => element tag proper)
    fun tag proper _ => Node.of_withChildren (element tag proper _)
  exact Node.unfilled_componentRoot fun c hc =>
    (Node.everywhere_iff.mp (built c (mem_of_mem_dropBlankEnds hc))).1

/-- Where no property is marked, filling marks those of the listed names. -/
theorem filledIn_of_unmarked (unmarked : ∀ p ∈ ps, p.merged = false) :
    filledIn entries ps =
      ps.map (fun p => { p with merged := decide (p.name ∈ entries.map (·.1)) }) ++
        (entries.filter (·.1 ∉ ps.map (·.name))).map .ofEntry := by
  rw [filledIn]
  refine congrArg (· ++ _) (List.map_congr_left fun p hp => ?_)
  rw [Property.markedIn, unmarked p hp, Bool.false_or]

theorem Node.fill_eq (distinct : (n.properties.map (·.name)).Nodup) :
    n.fill = { n with properties := filledIn rootProperties n.properties } := by
  obtain ⟨added, filled⟩ := n.exists_fill
  have same : added = filledIn rootProperties n.properties := by
    rw [← properties_fill distinct, filled]
  rw [filled, same]

theorem node_parseComponent_true (o : Options) (source : String) :
    (parseComponent o true source).node = (parseComponent o false source).node.fill := by
  simp only [parseComponent, if_true, Bool.false_eq_true, if_false]

/-- Filling adds to the root of a component what is missing and changes nothing else. The faults are
the same, and the root differs in its properties alone. Those of the template stay in their order
with their names and expressions, and are marked as merged just where they are named `class`,
`style` or `id`; each of these names that is missing is added once. So the root has just one
property of each of these names, and no two properties of one name. -/
theorem fill_adds_missing (o : Options) (source : String) :
    (parseComponent o true source).faults = (parseComponent o false source).faults ∧
    (∃ plain, (parseComponent o false source).node = plain ∧
      (∀ p ∈ plain.properties, p.merged = false) ∧
      (parseComponent o true source).node = { plain with
        properties :=
          plain.properties.map
            (fun p => { p with merged := decide (p.name ∈ ["class", "style", "id"]) }) ++
          ([("class", some "_xclass"), ("style", some "_xstyle"), ("id", none)].filter
            (·.1 ∉ plain.properties.map (·.name))).map fun (name, filter) =>
              { name, expr := .interpolation name filter.toList, merged := false } }) ∧
    ((parseComponent o true source).node.properties.map (·.name)).Nodup ∧
    ∀ name ∈ ["class", "style", "id"],
      ((parseComponent o true source).node.properties.map (·.name)).count name = 1 := by
  refine ⟨rfl, ?_⟩
  rw [node_parseComponent_true]
  have unfilled : (parseComponent o false source).node.Unfilled := unfilled_root o source
  generalize (parseComponent o false source).node = plain at unfilled ⊢
  have distinct : (plain.fill.properties.map (·.name)).Nodup := by
    rw [Node.properties_fill unfilled.distinct]
    exact distinct_filledIn unfilled.distinct (by decide)
  refine ⟨⟨plain, rfl, unfilled.unmarked, ?_⟩, distinct, fun name listed => ?_⟩
  · rw [Node.fill_eq unfilled.distinct, filledIn_of_unmarked unfilled.unmarked]
    rfl
  · refine List.count_eq_one_of_mem distinct ?_
    rw [Node.properties_fill unfilled.distinct]
    exact mem_names_filledIn _ listed

end ComponentLoader.Template
