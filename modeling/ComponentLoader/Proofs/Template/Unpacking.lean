import ComponentLoader.Proofs.Template.Nodes
import ComponentLoader.Template.Pack

/-! Reading a tree back from its pack. Every list comes after its length and every piece of
a tree after its code, so a pack says where it ends, and a tree can be read back from the
front of any list that begins with its pack. What a pack leaves out of a tree is what no
tree that is read has: a text with anything else to it, and an empty name. -/
namespace ComponentLoader.Template

open Markup (Tag)

/-- Nothing of the node is left out of its pack: a text is nothing but a text, and a name is not
empty. -/
structure Node.Plain (n : Node) : Prop where
  text : n.text.isSome → n = { text := n.text }
  tag : n.tag ≠ some ""

namespace Pack

/-- Reads something from the front of a pack, and leaves what follows. -/
abbrev Reader (α : Type) := StateT Pack Option α

namespace Reader

variable {α β : Type}

def number : Reader Nat
  | .number value :: rest => some (value, rest)
  | _ => none

def string : Reader String
  | .string value :: rest => some (value, rest)
  | _ => none

def flag : Reader Bool := do
  match ← number with
  | 0 => return false
  | 1 => return true
  | _ => failure

def optional (x : Reader α) : Reader (Option α)
  | .null :: rest => some (none, rest)
  | items => (do return some (← x) : Reader (Option α)) items

def times (x : Reader α) : Nat → Reader (List α)
  | 0 => return []
  | n + 1 => return (← x) :: (← times x n)

def list (x : Reader α) : Reader (List α) := do x.times (← number)

def expr : Nat → Reader Expr
  | 0 => failure
  | depth + 1 => do
    match ← number with
    | 3 => return .string (← string)
    | 4 => return .interpolation (← string) (← list string)
    | 5 => return .text (← list (expr depth))
    | 6 => return .raw (← string)
    | 7 => return .bool (← flag)
    | _ => failure

def property (depth : Nat) : Reader Property := do
  let name ← string
  let merged ← flag
  return { name, expr := ← expr depth, merged }

def event (depth : Nat) : Reader Event := do
  let name ← string
  let modifiers ← list string
  return { name, expr := ← expr depth, modifiers }

def directive (depth : Nat) : Reader (String × Directive) := do
  let name ← string
  let value ← optional (expr depth)
  let item ← optional string
  let index ← optional string
  return (name, { value, item, index, trackBy := ← optional string })

def directives (depth : Nat) : Reader Directives := do
  let entries ← list (directive depth)
  if sorted : entries.Pairwise (·.1 < ·.1) then return ⟨entries, sorted⟩ else failure

/-- An element after its code. An empty name is none. -/
def element (depth : Nat) (child : Reader Node) : Reader Node := do
  let name ← string
  let properties ← list (property depth)
  let events ← list (event depth)
  let directives ← directives depth
  let children ← list child
  return { tag := if name = "" then none else some name, properties, events, directives, children }

def node : Nat → Reader Node
  | 0 => failure
  | depth + 1 => do
    match ← number with
    | 1 => element depth (node depth)
    | 2 => return { text := some (← expr depth) }
    | _ => failure

end Reader

/-- Reads a node from the front of a pack, and returns what follows it. Nothing is nested deeper
than the pack is long. -/
def unpack (items : Pack) : Option (Node × Pack) := (Reader.node items.length).run items

/-- Where the items are followed by anything, they and no more are read, as `a`. -/
def Reads {α : Type} (x : Reader α) (items : Pack) (a : α) : Prop :=
  ∀ rest, x.run (items ++ rest) = some (a, rest)

namespace Reads

variable {α β : Type} {x : Reader α} {f : α → Reader β} {items more : Pack} {a : α} {b : β}

theorem pure (a : α) : Reads (Pure.pure a) [] a := fun _ => rfl

theorem bind (first : Reads x items a) (next : Reads (f a) more b) :
    Reads (x >>= f) (items ++ more) b := by
  intro rest
  rw [StateT.run_bind, List.append_assoc, first]
  exact next rest

theorem map (h : Reads x items a) (g : α → β) :
    Reads (x >>= fun a => Pure.pure (g a)) items (g a) := by
  have whole := h.bind (f := fun a => Pure.pure (g a)) (pure (g a))
  rwa [List.append_nil] at whole

theorem number (n : Nat) : Reads Reader.number [.number n] n := fun _ => rfl

theorem string (s : String) : Reads Reader.string [.string s] s := fun _ => rfl

theorem flag (b : Bool) : Reads Reader.flag [.number b.toNat] b := by
  cases b <;> exact fun _ => rfl

theorem absent : Reads (Reader.optional x) [.null] none := fun _ => rfl

theorem present {item : PackItem} (h : Reads x (item :: items) a) (written : item ≠ .null) :
    Reads (Reader.optional x) (item :: items) (some a) := by
  intro rest
  have own := h.map some rest
  cases item with
  | null => exact absurd rfl written
  | number n => exact own
  | string s => exact own

theorem times {p : α → Pack} {as : List α} (each : ∀ a ∈ as, Reads x (p a) a) :
    Reads (Reader.times x as.length) (as.flatMap p) as := by
  induction as with
  | nil => exact pure []
  | cons a as ih =>
    have rest := ih fun k hk => each k (List.mem_cons_of_mem a hk)
    exact (each a List.mem_cons_self).bind (rest.map (a :: ·))

theorem list {p : α → Pack} {as : List α} (each : ∀ a ∈ as, Reads x (p a) a) :
    Reads (Reader.list x) (.number as.length :: as.flatMap p) as :=
  (number as.length).bind (times each)

theorem strings (ss : List String) : Reads (Reader.list Reader.string) (Pack.strings ss) ss := by
  have whole := list (p := fun s => [.string s]) fun s (_ : s ∈ ss) => string s
  rwa [← List.map_eq_flatMap] at whole

theorem name (s : Option String) : Reads (Reader.optional Reader.string) [ofOption s] s := by
  cases s with
  | none => exact absent
  | some s => exact (string s).present nofun

end Reads

end Pack

open Pack (Reader Reads)

namespace Expr

theorem packAll_eq (es : List Expr) : packAll es = es.flatMap pack := by
  induction es with
  | nil => rfl
  | cons e es ih => rw [packAll, ih, List.flatMap_cons]

theorem exists_pack (e : Expr) : ∃ code items, e.pack = .number code :: items := by
  cases e <;> exact ⟨_, _, by rw [pack]⟩

/-- Whatever holds of an expression if it holds of its segments holds of every expression. -/
theorem induction {motive : Expr → Prop} (string : ∀ value, motive (.string value))
    (bool : ∀ value, motive (.bool value))
    (interpolation : ∀ expr filters, motive (.interpolation expr filters))
    (text : ∀ segments, (∀ e ∈ segments, motive e) → motive (.text segments))
    (raw : ∀ code, motive (.raw code)) (e : Expr) : motive e := by
  refine Expr.rec (motive_1 := motive) (motive_2 := fun es => ∀ e ∈ es, motive e) string bool
    interpolation text raw nofun ?_ e
  intro e es first rest k hk
  rcases List.mem_cons.mp hk with rfl | hk
  · exact first
  · exact rest k hk

end Expr

/-- The pack of a part of a list is no longer than that of the list. -/
theorem Pack.length_le_of_mem {α : Type} {p : α → Pack} {a : α} {as : List α} (h : a ∈ as) :
    (p a).length ≤ (as.flatMap p).length := by
  obtain ⟨before, after, rfl⟩ := List.append_of_mem h
  rw [List.flatMap_append, List.flatMap_cons, List.length_append, List.length_append]
  omega

theorem Node.packAll_eq (ns : List Node) : packAll ns = ns.flatMap pack := by
  induction ns with
  | nil => rfl
  | cons n ns ih => rw [packAll, ih, List.flatMap_cons]

namespace Pack.Reads

variable {depth : Nat}

theorem expr {e : Expr} (deep : e.pack.length ≤ depth) : Reads (Reader.expr depth) e.pack e := by
  induction e using Expr.induction generalizing depth with
  | string value =>
    obtain ⟨depth, rfl⟩ := Nat.exists_eq_add_of_lt deep
    exact (number 3).bind ((string value).map Expr.string)
  | bool value =>
    obtain ⟨depth, rfl⟩ := Nat.exists_eq_add_of_lt deep
    exact (number 7).bind ((flag value).map Expr.bool)
  | interpolation expr filters =>
    obtain ⟨depth, rfl⟩ := Nat.exists_eq_add_of_lt deep
    exact (number 4).bind ((string expr).bind ((strings filters).map (Expr.interpolation expr)))
  | text segments ih =>
    rw [Expr.pack, Expr.packAll_eq, List.length_cons, List.length_cons] at deep
    rw [Expr.pack, Expr.packAll_eq]
    obtain ⟨depth, rfl⟩ := Nat.exists_eq_add_of_lt deep
    refine (number 5).bind ((list fun e he => ih e he ?_).map Expr.text)
    have part := length_le_of_mem (p := Expr.pack) he
    omega
  | raw code =>
    obtain ⟨depth, rfl⟩ := Nat.exists_eq_add_of_lt deep
    exact (number 6).bind ((string code).map Expr.raw)

theorem property {p : Property} (deep : p.pack.length ≤ depth) :
    Reads (Reader.property depth) p.pack p := by
  have inner : p.expr.pack.length ≤ depth := by
    rw [Property.pack, List.length_cons, List.length_cons] at deep
    omega
  exact (string p.name).bind ((flag p.merged).bind
    ((expr inner).map fun expr => ({ name := p.name, expr, merged := p.merged } : Property)))

theorem event {e : Event} (deep : e.pack.length ≤ depth) :
    Reads (Reader.event depth) e.pack e := by
  have inner : e.expr.pack.length ≤ depth := by
    rw [Event.pack, List.cons_append, List.length_cons, List.length_append] at deep
    omega
  exact (string e.name).bind ((strings e.modifiers).bind
    ((expr inner).map fun expr => ({ name := e.name, expr, modifiers := e.modifiers } : Event)))

theorem directive {entry : String × Directive} (deep : (entry.2.pack entry.1).length ≤ depth) :
    Reads (Reader.directive depth) (entry.2.pack entry.1) entry := by
  obtain ⟨key, value, item, index, trackBy⟩ := entry
  have code : Reads (Reader.optional (Reader.expr depth)) ((value.map Expr.pack).getD [.null])
      value := by
    cases value with
    | none => exact absent
    | some e =>
      obtain ⟨code, items, pack⟩ := e.exists_pack
      have inner : e.pack.length ≤ depth := by
        simp only [Directive.pack, Option.map_some, Option.getD_some, List.cons_append,
          List.length_cons, List.length_append] at deep
        omega
      have own := expr inner
      rw [Option.map_some, Option.getD_some, pack]
      rw [pack] at own
      exact own.present nofun
  exact (string key).bind (code.bind ((name item).bind ((name index).bind ((name trackBy).map
    fun trackBy => (key, ({ value, item, index, trackBy } : Directive))))))

theorem directives {ds : Directives}
    (deep : ∀ entry ∈ ds.entries, (entry.2.pack entry.1).length ≤ depth) :
    Reads (Reader.directives depth)
      (.number ds.entries.length :: ds.entries.flatMap fun (name, d) => d.pack name) ds := by
  have entries := list (x := Reader.directive depth) (p := fun entry => entry.2.pack entry.1)
    fun entry he => directive (deep entry he)
  have sorted : Reads (if sorted : ds.entries.Pairwise (·.1 < ·.1) then
      Pure.pure (⟨ds.entries, sorted⟩ : Directives) else failure : Reader Directives) [] ds := by
    rw [dif_pos ds.sorted]
    exact pure ds
  have whole := entries.bind (f := fun entries =>
    if sorted : entries.Pairwise (·.1 < ·.1) then Pure.pure (⟨entries, sorted⟩ : Directives)
    else failure) sorted
  rwa [List.append_nil] at whole

/-- Without a text a node is read back if its children are and its name is not empty. -/
theorem element {tag : Option String} {properties : List Property} {events : List Event}
    {ds : Directives} {children : List Node} {child : Reader Node} (named : tag ≠ some "")
    (each : ∀ c ∈ children, Reads child c.pack c)
    (deep : (Node.pack ⟨tag, none, properties, events, ds, children⟩).length ≤ depth + 1) :
    Reads (Reader.element depth child)
      (Node.pack ⟨tag, none, properties, events, ds, children⟩).tail
      ⟨tag, none, properties, events, ds, children⟩ := by
  rw [Node.pack, Node.packAll_eq] at deep ⊢
  simp only [List.cons_append, List.append_assoc, List.length_cons, List.length_append] at deep
  simp only [List.cons_append, List.append_assoc, List.tail_cons]
  have readProperties := list fun p (hp : p ∈ properties) => by
    have part := length_le_of_mem (p := Property.pack) hp
    exact property (show p.pack.length ≤ depth by omega)
  have readEvents := list fun e (he : e ∈ events) => by
    have part := length_le_of_mem (p := Event.pack) he
    exact event (show e.pack.length ≤ depth by omega)
  have readDirectives : Reads (Reader.directives depth) _ ds := directives fun entry he => by
    have part := length_le_of_mem (p := fun entry : String × Directive => entry.2.pack entry.1) he
    omega
  have name : (if tag.getD "" = "" then none else some (tag.getD "")) = tag := by
    cases tag with
    | none => rfl
    | some name => exact if_neg fun empty => named (congrArg some empty)
  have made : (⟨tag, none, properties, events, ds, children⟩ : Node) =
      { tag := if tag.getD "" = "" then none else some (tag.getD ""), properties, events,
        directives := ds, children } := by rw [name]
  rw [made]
  exact (string (tag.getD "")).bind (readProperties.bind (readEvents.bind (readDirectives.bind
    ((list each).map fun children =>
      ({ tag := if tag.getD "" = "" then none else some (tag.getD ""), properties, events,
         directives := ds, children } : Node)))))

/-- A node of which its pack leaves nothing out is read back from it. -/
theorem node {n : Node} (plain : n.Everywhere Node.Plain) (deep : n.pack.length ≤ depth) :
    Reads (Reader.node depth) n.pack n := by
  induction n using Node.induction generalizing depth with
  | step n ih =>
  obtain ⟨own, inner⟩ := Node.everywhere_iff.mp plain
  obtain ⟨tag, text, properties, events, ds, children⟩ := n
  cases text with
  | some e =>
    obtain ⟨rfl, rfl, rfl, rfl, rfl⟩ : tag = none ∧ properties = [] ∧ events = [] ∧
        ds = .empty ∧ children = [] := by
      simpa using own.text rfl
    rw [Node.pack, List.length_cons] at deep
    rw [Node.pack]
    obtain ⟨depth, rfl⟩ := Nat.exists_eq_add_of_lt deep
    exact (number 2).bind ((expr (by omega)).map fun e => ({ text := some e } : Node))
  | none =>
    have parts := deep
    rw [Node.pack, Node.packAll_eq] at parts
    simp only [List.cons_append, List.append_assoc, List.length_cons, List.length_append] at parts
    obtain ⟨depth, rfl⟩ : ∃ inner, depth = inner + 1 := ⟨depth - 1, by omega⟩
    have each (c : Node) (hc : c ∈ children) : Reads (Reader.node depth) c.pack c := by
      have part := length_le_of_mem (p := Node.pack) hc
      exact ih c hc (inner c hc) (by omega)
    exact (number 1).bind (element own.tag each deep)

end Pack.Reads

/-- A tree is read back from the front of any pack that begins with its own. -/
theorem unpack_pack {n : Node} (plain : n.Everywhere Node.Plain) (rest : Pack) :
    Pack.unpack (n.pack ++ rest) = some (n, rest) := by
  refine Pack.Reads.node plain ?_ rest
  rw [List.length_append]
  omega

/-- No pack is the beginning of another: what two trees are packed as tells them apart, whatever
follows it. -/
theorem pack_append_inj {m n : Node} (plain : m.Everywhere Node.Plain)
    (plain' : n.Everywhere Node.Plain) {rest rest' : Pack}
    (same : m.pack ++ rest = n.pack ++ rest') : m = n ∧ rest = rest' := by
  have read := unpack_pack plain rest
  rw [same, unpack_pack plain' rest'] at read
  obtain ⟨rfl, rfl⟩ := Prod.mk.inj (Option.some.inj read)
  exact ⟨rfl, rfl⟩

namespace Node

theorem Plain.of_text_eq_none {n : Node} (element : n.text = none) (tag : n.tag ≠ some "") :
    n.Plain where
  text texts := by
    rw [element] at texts
    cases texts
  tag := tag

theorem exists_fillProperty (n : Node) (name : String) (filter : Option String) :
    ∃ properties, n.fillProperty name filter = { n with properties } := by
  unfold fillProperty
  split <;> exact ⟨_, rfl⟩

/-- Only properties are filled in. -/
theorem exists_fill (n : Node) : ∃ properties, n.fill = { n with properties } := by
  unfold fill
  induction rootProperties generalizing n with
  | nil =>
    refine ⟨n.properties, ?_⟩
    cases n
    rfl
  | cons entry entries ih =>
    obtain ⟨first, filled⟩ := n.exists_fillProperty entry.1 entry.2
    obtain ⟨properties, rest⟩ := ih { n with properties := first }
    rw [List.foldl_cons]
    dsimp only
    rw [filled]
    exact ⟨properties, rest⟩

theorem plain_componentRoot {n : Node} (plain : ∀ c ∈ n.children, c.Everywhere Plain) :
    n.componentRoot.text = none ∧ n.componentRoot.Everywhere Plain := by
  have div : ({ tag := some "div" } : Node).Everywhere Plain :=
    everywhere_iff.mpr ⟨.of_text_eq_none rfl (by decide), nofun⟩
  obtain ⟨first, root, element, own⟩ : ∃ first : Node, n.componentRoot =
      (if first.tag = some "template" then { first with tag := none } else first) ∧
      first.text = none ∧ first.Everywhere Plain := by
    unfold componentRoot
    split
    · next c cs children =>
      dsimp only
      split
      · exact ⟨_, rfl, rfl, div⟩
      · next element =>
        refine ⟨c, rfl, by simpa [isText] using element, plain c ?_⟩
        rw [children]
        exact List.mem_cons_self
    · exact ⟨_, rfl, rfl, div⟩
  rw [root]
  split
  · exact ⟨element, everywhere_iff.mpr
      ⟨.of_text_eq_none element nofun, (everywhere_iff.mp own).2⟩⟩
  · exact ⟨element, own⟩

end Node

variable (o : Options) (source : String)

theorem plain_children_parse : ∀ n ∈ (parse o source).node.children, n.Everywhere Node.Plain := by
  have element (tag : Tag) (proper : tag.Proper) (children : List Node) :
      Node.Plain { Node.ofTag o.delimiters tag with children } :=
    .of_text_eq_none rfl fun empty => proper.named (Option.some.inj empty)
  have built := everywhere_built o source (fun expr => ⟨fun _ => rfl, nofun⟩)
    (fun tag proper _ => element tag proper)
    fun tag proper _ => Node.of_withChildren (element tag proper _)
  exact fun n hn => built n (mem_of_mem_dropBlankEnds hn)

theorem plain_parse : (parse o source).node.Everywhere Node.Plain :=
  Node.everywhere_iff.mpr ⟨.of_text_eq_none rfl nofun, plain_children_parse o source⟩

theorem plain_parseComponent (fill : Bool) :
    (parseComponent o fill source).node.Everywhere Node.Plain := by
  obtain ⟨element, own⟩ := Node.plain_componentRoot (plain_children_parse o source)
  unfold parseComponent
  dsimp only
  split
  · obtain ⟨properties, filled⟩ := (parse o source).node.componentRoot.exists_fill
    obtain ⟨root, inner⟩ := Node.everywhere_iff.mp own
    rw [filled]
    exact Node.everywhere_iff.mpr ⟨.of_text_eq_none element root.tag, inner⟩
  · exact own

/-- Packs can be read back. A tree comes back from its pack whatever follows that, so no two trees
have one pack and no pack begins another; and every tree that a template is read as is of the
kind of which a pack leaves nothing out, and so is every tree within it. -/
theorem packs_read_back :
    (∀ n : Node, n.Everywhere Node.Plain → ∀ rest,
      Pack.unpack (n.pack ++ rest) = some (n, rest)) ∧
    (∀ m n : Node, m.Everywhere Node.Plain → n.Everywhere Node.Plain → ∀ rest rest',
      m.pack ++ rest = n.pack ++ rest' → m = n ∧ rest = rest') ∧
    ∀ (o : Options) (source : String),
      (∀ n : Node, n.Inside (parse o source).node → n.Everywhere Node.Plain) ∧
      ∀ fill, ∀ n : Node, n.Inside (parseComponent o fill source).node →
        n.Everywhere Node.Plain :=
  ⟨fun _ plain rest => unpack_pack plain rest,
    fun _ _ plain plain' _ _ same => pack_append_inj plain plain' same,
    fun o source => ⟨fun _ within => (plain_parse o source).inside within,
      fun fill _ within => (plain_parseComponent o source fill).inside within⟩⟩

/-- An element with a condition and a text of two segments is read back from in front of other
items, of which none is taken. -/
theorem packs_read_back_condition :
    let text : Node := { text := some (.text [.string "a", .interpolation "b" ["c"]]) }
    let n : Node :=
      { tag := some "p", directives := .ofList [("if", { value := some (.raw "d") })],
        children := [text] }
    n.pack = [.number 1, .string "p", .number 0, .number 0,
        .number 1, .string "if", .number 6, .string "d", .null, .null, .null,
        .number 1, .number 2, .number 5, .number 2, .number 3, .string "a",
        .number 4, .string "b", .number 1, .string "c"] ∧
      n.Everywhere Node.Plain ∧ Pack.unpack (n.pack ++ [.null]) = some (n, [.null]) := by
  intro text n
  have plain : n.Everywhere Node.Plain := by
    refine Node.everywhere_iff.mpr ⟨.of_text_eq_none rfl (by decide), fun c hc => ?_⟩
    obtain rfl := List.mem_singleton.mp hc
    exact Node.everywhere_iff.mpr ⟨⟨fun _ => rfl, nofun⟩, nofun⟩
  exact ⟨by decide, plain, packs_read_back.1 n plain [.null]⟩

end ComponentLoader.Template
