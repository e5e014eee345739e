import Mathlib.Algebra.Group.Nat.Defs
import ComponentLoader.Proofs.Request.Query

/-! A query that is built up key by key is read as it was built. Of several values
that are given to a key the last one counts; what the query began with stays, except
under the keys that are added. -/
namespace ComponentLoader

/-- What is added to a query: a key with a value, or a key alone, which is read as
having the empty one. -/
inductive Addition where
  | param (key value : String)
  | flag (key : String)
deriving DecidableEq, Repr

namespace Addition

def key : Addition → String
  | param key _ => key
  | flag key => key

def value : Addition → String
  | param _ value => value
  | flag _ => ""

end Addition

namespace BlockQuery

def add (q : BlockQuery) : Addition → BlockQuery
  | .param key value => q.param key value
  | .flag key => q.flag key

def addAll (q : BlockQuery) (additions : List Addition) : BlockQuery := additions.foldl add q

theorem Marked.addAll {q : BlockQuery} (h : q.Marked) (additions : List Addition) :
    (q.addAll additions).Marked := by
  induction additions generalizing q with
  | nil => exact h
  | cons a additions ih =>
    apply ih
    cases a with
    | param key value => exact h.param key value
    | flag key => exact h.flag key

end BlockQuery

namespace Query

def ownKeys : List String := ["san", "type", "index"]

theorem get?_add (q : BlockQuery) {a : Addition} (h : IsKey a.key) (key : String) :
    (parse (q.add a).text).get? key =
      if key = a.key then some a.value else (parse q.text).get? key := by
  cases a with
  | param own value => exact get?_param q h value key
  | flag own => exact get?_flag q h key

/-- Keys that are not added are read as before. -/
theorem get?_addAll_of_notMem {q : BlockQuery} {additions : List Addition}
    (keys : ∀ a ∈ additions, IsKey a.key) {key : String}
    (other : key ∉ additions.map Addition.key) :
    (parse (q.addAll additions).text).get? key = (parse q.text).get? key := by
  induction additions generalizing q with
  | nil => rfl
  | cons a additions ih =>
    obtain ⟨unlike, others⟩ := not_or.mp (mt List.mem_cons.mpr other)
    calc
      (parse ((q.add a).addAll additions).text).get? key = (parse (q.add a).text).get? key :=
        ih (fun b hb => keys b (List.mem_cons_of_mem a hb)) others
      _ = (parse q.text).get? key := by
        rw [get?_add q (keys a List.mem_cons_self), if_neg unlike]

/-- The last addition of a key gives it its value. -/
theorem get?_addAll {q : BlockQuery} {before after : List Addition} {a : Addition}
    (keys : ∀ b ∈ before ++ a :: after, IsKey b.key) (last : a.key ∉ after.map Addition.key) :
    (parse (q.addAll (before ++ a :: after)).text).get? a.key = some a.value := by
  have own : IsKey a.key := keys a (by simp)
  have later : ∀ b ∈ after, IsKey b.key := fun b hb => keys b (by simp [hb])
  have parts : q.addAll (before ++ a :: after) = ((q.addAll before).add a).addAll after :=
    List.foldl_append
  rw [parts, get?_addAll_of_notMem later last, get?_add _ own, if_pos rfl]

end Query

namespace BlockQuery

/-- A query that is built for a block, with keys that differ from each other and from those
that name the block, is read as one for that very block, and every key has the value that it was
given. Behind a path without a question mark it is told from the path. -/
theorem built_reads_back {kind : BlockKind} {index : Nat} {additions : List Addition}
    (small : index < 2 ^ 64) (keys : ∀ a ∈ additions, Query.IsKey a.key)
    (free : ∀ a ∈ additions, a.key ∉ Query.ownKeys)
    (distinct : (additions.map Addition.key).Nodup) :
    let q := (ofBlock kind index).addAll additions
    (Query.parse q.text).isBlockRequest = true ∧
      (Query.parse q.text).kind = .ok (some kind) ∧
      (Query.parse q.text).index = .ok (some index) ∧
      (∀ a ∈ additions, (Query.parse q.text).get? a.key = some a.value) ∧
      ∀ path : String, '?' ∉ path.toList → splitRequest (q.request path) = (path, q.text) := by
  intro q
  have kept (key : String) (own : key ∈ Query.ownKeys) :
      (Query.parse q.text).get? key = (Query.parse (ofBlock kind index).text).get? key := by
    apply Query.get?_addAll_of_notMem keys
    intro added
    obtain ⟨a, ha, rfl⟩ := List.mem_map.mp added
    exact free a ha own
  rw [Query.parse_ofBlock] at kept
  have mark : (Query.parse q.text).get? "san" = some "" := kept "san" (by decide)
  have type : (Query.parse q.text).get? "type" = some kind.tag := kept "type" (by decide)
  have place : (Query.parse q.text).get? "index" = some (toString index) :=
    kept "index" (by decide)
  refine ⟨?_, ?_, ?_, ?_, ?_⟩
  · simp only [Query.isBlockRequest, Query.blockType?, mark, type, if_true, Option.isSome_some]
  · rw [Query.kind, type]
    cases kind <;> rfl
  · have read : Query.parseIndex? (toString index) = some index :=
      Query.parseIndex?_toString (Nat.le_of_lt_succ small)
    rw [Query.index, place]
    simp only [Option.mapM_some, read]
    rfl
  · intro a ha
    obtain ⟨before, after, rfl⟩ := List.append_of_mem ha
    apply Query.get?_addAll keys
    intro again
    rw [List.map_append, List.map_cons] at distinct
    exact (List.nodup_cons.mp (List.nodup_append.mp distinct).2.1).1 again
  · intro path plain
    exact ((marked_ofBlock kind index).addAll additions).splitRequest plain

/-- Values that look like parts of a query, and the greatest index. -/
theorem built_reads_back_separators :
    let additions := [.param "module" "a&b=c +%41é", .flag "scoped", .param "src" "?😀/=.css"]
    let q := (ofBlock .style (2 ^ 64 - 1)).addAll additions
    q.text = "?san&type=style&index=18446744073709551615&module=a%26b%3Dc%20%2B%2541%C3%A9" ++
        "&scoped&src=%3F%F0%9F%98%80/%3D.css" ∧
      (Query.parse q.text).index = .ok (some (2 ^ 64 - 1)) ∧
      (Query.parse q.text).get? "module" = some "a&b=c +%41é" ∧
      (Query.parse q.text).get? "scoped" = some "" ∧
      splitRequest (q.request "App.san") = ("App.san", q.text) := by
  intro additions q
  obtain ⟨-, -, place, values, parts⟩ :=
    @built_reads_back .style (2 ^ 64 - 1) additions (by decide) (by decide) (by decide)
      (by decide)
  refine ⟨by decide +kernel, place, ?_, ?_, ?_⟩
  · exact values (.param "module" "a&b=c +%41é") (by decide)
  · exact values (.flag "scoped") (by decide)
  · exact parts "App.san" (by decide)

end BlockQuery

end ComponentLoader
