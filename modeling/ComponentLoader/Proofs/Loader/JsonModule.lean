import ComponentLoader.Loader.Extract
import ComponentLoader.Proofs.Json.Reading
import ComponentLoader.Proofs.Template.Nodes
import ComponentLoader.Proofs.Template.Unpacking

/-! No two compiled templates have one module. A field of a tree is found under its key, and what is
not found is absent, empty or false, which is never written; a pack is an array and not an object;
and the text of a JSON value is that of no other. -/
namespace ComponentLoader.Template

def unlessEmpty {α : Type} (make : List α → Json) (xs : List α) : Option Json :=
  if xs.isEmpty then none else some (make xs)

theorem unlessEmpty_inj {α : Type} {make : List α → Json} {xs ys : List α}
    (known : make xs = make ys → xs = ys) (h : unlessEmpty make xs = unlessEmpty make ys) :
    xs = ys := by
  cases xs with
  | nil =>
    cases ys with
    | nil => rfl
    | cons y ys => cases h
  | cons x xs =>
    cases ys with
    | nil => cases h
    | cons y ys => exact known (Option.some.inj h)

theorem jsonList_eq (key : String) (items : List Json) :
    jsonList key items = jsonOptional key (unlessEmpty .array items) := by
  cases items <;> rfl

def jsonEntries (entries : List (String × Directive)) : Json :=
  .object (entries.map fun (name, d) => (name, d.toJson))

theorem Directives.toMembers_eq (ds : Directives) :
    ds.toMembers = jsonOptional "directives" (unlessEmpty jsonEntries ds.entries) := by
  rw [toMembers, unlessEmpty]
  split
  · rfl
  · rfl

@[simp] theorem lookup_jsonOptional (name key : String) (value : Option Json) :
    (jsonOptional key value).lookup name = if name = key then value else none := by
  cases value with
  | none => exact (ite_self none).symm
  | some v =>
    change List.lookup name [(key, v)] = _
    rw [List.lookup_cons]
    by_cases same : name = key
    · simp [same]
    · simp [same, beq_eq_false_iff_ne.mpr same]

theorem Expr.allToJson_eq (es : List Expr) : Expr.allToJson es = es.map Expr.toJson := by
  induction es with
  | nil => rfl
  | cons e es ih => rw [Expr.allToJson, ih, List.map_cons]

theorem Node.allToJson_eq (ns : List Node) : Node.allToJson ns = ns.map Node.toJson := by
  induction ns with
  | nil => rfl
  | cons n ns ih => rw [Node.allToJson, ih, List.map_cons]

theorem map_string_inj {ss ts : List String} (h : ss.map Json.string = ts.map Json.string) :
    ss = ts :=
  (List.map_inj_right fun _ _ => Json.string.inj).mp h

theorem optional_string_inj {s t : Option String} (h : s.map Json.string = t.map Json.string) :
    s = t :=
  (Option.map_inj_right fun _ _ => Json.string.inj).mp h

/-- An expression says of what kind it is, and has the fields of its kind. -/
theorem Expr.toJson_inj {e e' : Expr} (h : e.toJson = e'.toJson) : e = e' := by
  induction e using Expr.induction generalizing e' with
  | string value => cases e' <;> simp_all [Expr.toJson]
  | bool value => cases e' <;> simp_all [Expr.toJson]
  | interpolation expr filters =>
    cases e' with
    | interpolation expr' filters' =>
      simp only [Expr.toJson, jsonStrings, Json.object.injEq, List.cons.injEq, Prod.mk.injEq,
        Json.string.injEq, Json.array.injEq, true_and, and_true] at h
      obtain ⟨same, filters⟩ := h
      rw [same, map_string_inj filters]
    | _ => simp [Expr.toJson] at h
  | text segments ih =>
    cases e' with
    | text segments' =>
      simp only [Expr.toJson, Expr.allToJson_eq, Json.object.injEq, List.cons.injEq,
        Prod.mk.injEq, Json.array.injEq, true_and, and_true] at h
      rw [List.eq_of_map_eq (fun e he e' same => ih e he same) h]
    | _ => simp [Expr.toJson] at h
  | raw code => cases e' <;> simp_all [Expr.toJson]

theorem optional_expr_inj {e e' : Option Expr} (h : e.map Expr.toJson = e'.map Expr.toJson) :
    e = e' :=
  (Option.map_inj_right fun _ _ => Expr.toJson_inj).mp h

theorem Property.toJson_inj {p q : Property} (h : p.toJson = q.toJson) : p = q := by
  obtain ⟨name, expr, merged⟩ := p
  obtain ⟨name', expr', merged'⟩ := q
  simp only [toJson, List.cons_append, List.nil_append, Json.object.injEq, List.cons.injEq,
    Prod.mk.injEq, Json.string.injEq, true_and] at h
  obtain ⟨rfl, same, flags⟩ := h
  rw [Expr.toJson_inj same]
  cases merged <;> cases merged' <;> first | rfl | cases flags

theorem Event.toJson_inj {e f : Event} (h : e.toJson = f.toJson) : e = f := by
  obtain ⟨name, expr, modifiers⟩ := e
  obtain ⟨name', expr', modifiers'⟩ := f
  simp only [toJson, jsonList_eq, List.cons_append, List.nil_append, Json.object.injEq,
    List.cons.injEq, Prod.mk.injEq, Json.string.injEq, true_and] at h
  obtain ⟨rfl, same, rest⟩ := h
  have listed := congrArg (List.lookup "modifiers") rest
  simp only [lookup_jsonOptional, if_true] at listed
  rw [Expr.toJson_inj same, map_string_inj (unlessEmpty_inj Json.array.inj listed)]

/-- Each field of a directive is found under its key. -/
theorem Directive.toJson_inj {d e : Directive} (h : d.toJson = e.toJson) : d = e := by
  have found (key : String) := congrArg (List.lookup key) (Json.object.inj h)
  simp only [List.lookup_append, lookup_jsonOptional] at found
  have value : d.value.map Expr.toJson = e.value.map Expr.toJson := by simpa using found "value"
  have item : d.item.map Json.string = e.item.map Json.string := by simpa using found "item"
  have index : d.index.map Json.string = e.index.map Json.string := by simpa using found "index"
  have trackBy : d.trackBy.map Json.string = e.trackBy.map Json.string := by
    simpa using found "trackBy"
  cases d
  cases e
  rw [Directive.mk.injEq]
  exact ⟨optional_expr_inj value, optional_string_inj item, optional_string_inj index,
    optional_string_inj trackBy⟩

theorem jsonEntries_inj {entries entries' : List (String × Directive)}
    (h : jsonEntries entries = jsonEntries entries') : entries = entries' := by
  refine (List.map_inj_right ?_).mp (Json.object.inj h)
  rintro ⟨name, d⟩ ⟨name', d'⟩ same
  obtain ⟨rfl, own⟩ := Prod.mk.inj same
  rw [Directive.toJson_inj own]

/-- Each field of a node is found under its key, and the children are nodes of smaller trees. -/
theorem Node.toJson_inj {n m : Node} (h : n.toJson = m.toJson) : n = m := by
  induction n using Node.induction generalizing m with
  | step n ih =>
    obtain ⟨tag, text, properties, events, directives, children⟩ := n
    obtain ⟨tag', text', properties', events', directives', children'⟩ := m
    have found (key : String) := congrArg (List.lookup key) (Json.object.inj h)
    simp only [jsonList_eq, Directives.toMembers_eq, Node.allToJson_eq, List.lookup_append,
      lookup_jsonOptional] at found
    have tags : tag.map Json.string = tag'.map Json.string := by simpa using found "tagName"
    have texts : text.map Expr.toJson = text'.map Expr.toJson := by simpa using found "textExpr"
    have props : unlessEmpty .array (properties.map Property.toJson) =
        unlessEmpty .array (properties'.map Property.toJson) := by
      simpa using found "props"
    have handlers : unlessEmpty .array (events.map Event.toJson) =
        unlessEmpty .array (events'.map Event.toJson) := by
      simpa using found "events"
    have named : unlessEmpty jsonEntries directives.entries =
        unlessEmpty jsonEntries directives'.entries := by
      simpa using found "directives"
    have inner : unlessEmpty .array (children.map Node.toJson) =
        unlessEmpty .array (children'.map Node.toJson) := by
      simpa using found "children"
    rw [Node.mk.injEq, Directives.mk.injEq]
    exact ⟨optional_string_inj tags, optional_expr_inj texts,
      (List.map_inj_right fun _ _ => Property.toJson_inj).mp
        (unlessEmpty_inj Json.array.inj props),
      (List.map_inj_right fun _ _ => Event.toJson_inj).mp
        (unlessEmpty_inj Json.array.inj handlers),
      unlessEmpty_inj jsonEntries_inj named,
      List.eq_of_map_eq (fun c here m same => ih c here same)
        (unlessEmpty_inj Json.array.inj inner)⟩

theorem PackItem.toJson_inj {x y : PackItem} (h : x.toJson = y.toJson) : x = y := by
  cases x <;> cases y <;> simp_all [toJson]

theorem Pack.toJson_inj {p q : Pack} (h : p.toJson = q.toJson) : p = q :=
  (List.map_inj_right fun _ _ => PackItem.toJson_inj).mp (Json.array.inj h)

/-- A tree is an object and a pack an array. -/
theorem Node.toJson_ne_pack (n : Node) (p : Pack) : n.toJson ≠ p.toJson := by
  cases n
  exact Json.noConfusion

end ComponentLoader.Template

namespace ComponentLoader.BlockCode

theorem jsonModule_inj {esModule : Bool} {j k : Json}
    (h : jsonModule esModule j = jsonModule esModule k) : j = k :=
  Json.render_inj (String.append_right_inj _ |>.mp (String.append_left_inj _ |>.mp h))

/-- A compiled template is known by its module: no two trees, no two packs, and no tree and pack,
have the same text. -/
theorem toModule_eq_iff {a b : BlockCode} (compiled : a.text? = none) (compiled' : b.text? = none)
    (esModule : Bool) : a.toModule esModule = b.toModule esModule ↔ a = b := by
  constructor
  · intro same
    cases a with
    | text content => cases compiled
    | tree n =>
      cases b with
      | text content => cases compiled'
      | tree m => rw [Template.Node.toJson_inj (jsonModule_inj same)]
      | packed p => exact absurd (jsonModule_inj same) (n.toJson_ne_pack p)
    | packed p =>
      cases b with
      | text content => cases compiled'
      | tree n => exact absurd (jsonModule_inj same).symm (n.toJson_ne_pack p)
      | packed q => rw [Template.Pack.toJson_inj (jsonModule_inj same)]
  · rintro rfl
    rfl

/-- A tag that is empty is not one that is absent. -/
theorem toModule_ne_of_empty_tag :
    (tree { tag := some "" }).toModule true ≠ (tree {}).toModule true := by
  intro same
  have equal : tree { tag := some "" } = tree {} := (toModule_eq_iff rfl rfl true).mp same
  cases congrArg Template.Node.tag (tree.inj equal)

end ComponentLoader.BlockCode
