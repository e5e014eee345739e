import ComponentLoader.Proofs.Template.Loops
import Mathlib.Data.List.Perm.Subperm

/-! The modifiers of an event. Each of them is looked for once, in one order, at the front of what
the ones before have left. So the modifiers that are written in that order are all taken off the
handler, and one that is written after a later one stays in its code. -/
namespace ComponentLoader.Template

open Markup (Attribute Delimiters Tag)
open Text (AllSpace First Trimmed isSpace trimEnd trimStart)

theorem Role.ofName_event (name : String) : Role.ofName ("on-" ++ name) = .event name := by
  have other : Text.stripStart "s-".toList ("on-" ++ name).toList = none := by
    rw [String.toList_append]
    rfl
  have event : Text.stripStart "on-".toList ("on-" ++ name).toList = some name.toList :=
    Text.stripStart_eq_some_iff.mpr String.toList_append
  simp only [ofName, other, event, String.ofList_toList]

namespace Event

/-- A modifier as it is written before a handler: a word, and white space after its colon. -/
structure Modifier where
  word : String
  space : List Char

def handler (ms : List Modifier) (code : List Char) : List Char :=
  ms.foldr (fun m rest => m.word.toList ++ ':' :: (m.space ++ rest)) code

def Leads (word : String) (code : List Char) : Prop := word.toList ++ [':'] <+: code

instance (word : String) (code : List Char) : Decidable (Leads word code) :=
  inferInstanceAs (Decidable (_ <+: _))

def IsWord (word : String) : Prop := ∀ c ∈ word.toList, c ≠ ':' ∧ isSpace c = false

/-- Takes a word off the front of the code, and the white space after it. -/
def take (found : List String × List Char) (word : String) : List String × List Char :=
  match Text.stripStart (word.toList ++ [':']) found.2 with
  | some rest => (found.1 ++ [word], trimStart rest)
  | none => found

theorem read_eq (name : String) (value : Option String) :
    Event.read name value =
      let found := eventModifiers.foldl take ([], Text.trim (value.getD "").toList)
      { name, expr := .raw (String.ofList found.2), modifiers := found.1 } := by
  unfold Event.read
  generalize eventModifiers = words
  rfl

variable {word other : String} {words : List String} {ms : List Modifier} {code : List Char}

theorem handler_cons (m : Modifier) (ms : List Modifier) (code : List Char) :
    handler (m :: ms) code = m.word.toList ++ ':' :: (m.space ++ handler ms code) := rfl

theorem take_of_leads (found : List String) (word : String) (rest : List Char) :
    take (found, word.toList ++ ':' :: rest) word = (found ++ [word], trimStart rest) := by
  have front : Text.stripStart (word.toList ++ [':']) (word.toList ++ ':' :: rest) = some rest :=
    Text.stripStart_eq_some_iff.mpr (List.append_cons _ _ _)
  simp only [take, front]

theorem take_of_not_leads (absent : ¬ Leads word code) (found : List String) :
    take (found, code) word = (found, code) := by
  have none : Text.stripStart (word.toList ++ [':']) code = none :=
    Text.stripStart_eq_none_iff.mpr absent
  simp only [take, none]

/-- The only word that leads is the one before the first colon. -/
theorem leads_iff (plain : IsWord word) (plain' : IsWord other) (rest : List Char) :
    Leads word (other.toList ++ ':' :: rest) ↔ word = other := by
  constructor
  · rintro ⟨t, parts⟩
    have here : First [':'] (word.toList ++ [':'] ++ t) word.toList t :=
      Text.first_of_not_mem fun colon => (plain _ colon).1 rfl
    have there : First [':'] (other.toList ++ [':'] ++ rest) other.toList rest :=
      Text.first_of_not_mem fun colon => (plain' _ colon).1 rfl
    rw [parts, List.append_cons] at here
    exact String.toList_inj.mp (here.unique there).1
  · rintro rfl
    exact ⟨rest, (List.append_cons _ _ _).symm⟩

theorem Leads.of_trimEnd (h : Leads word (trimEnd code)) : Leads word code :=
  List.IsPrefix.trans h (List.rdropWhile_prefix _ _)

theorem trimStart_handler (plain : ∀ m ∈ ms, IsWord m.word) (front : trimStart code = code) :
    trimStart (handler ms code) = handler ms code := by
  cases ms with
  | nil => exact front
  | cons m ms =>
    rw [handler_cons]
    cases letters : m.word.toList with
    | nil => exact List.dropWhile_cons_of_neg (by decide)
    | cons c rest =>
      have bare := (plain m List.mem_cons_self c (by rw [letters]; exact List.mem_cons_self)).2
      exact List.dropWhile_cons_of_neg (by simp [bare])

/-- Words that are looked for at the front of a text. Each is taken off it with its colon and the
white space after that, or passed over where it is not there, and the code is what they leave. -/
inductive Handles : List String → List Char → List String → List Char → Prop
  | done (code : List Char) : Handles [] code [] code
  | taken {word : String} {words taken : List String} {space rest code : List Char}
      (blank : AllSpace space) (front : ∀ c ∈ rest.head?, isSpace c = false)
      (more : Handles words rest taken code) :
      Handles (word :: words) (word.toList ++ ':' :: (space ++ rest)) (word :: taken) code
  | passed {word : String} {words taken : List String} {s code : List Char}
      (absent : ¬ Leads word s) (more : Handles words s taken code) :
      Handles (word :: words) s taken code

theorem exists_handles (words : List String) (s : List Char) (found : List String) :
    ∃ taken code, words.foldl take (found, s) = (found ++ taken, code) ∧
      Handles words s taken code := by
  induction words generalizing s found with
  | nil => exact ⟨[], s, by rw [List.foldl_nil, List.append_nil], .done s⟩
  | cons word words ih =>
    rw [List.foldl_cons]
    by_cases leads : Leads word s
    · obtain ⟨rest, rfl⟩ := leads
      rw [← List.append_cons, take_of_leads]
      obtain ⟨taken, code, folded, handles⟩ := ih (trimStart rest) (found ++ [word])
      have parts : rest.takeWhile isSpace ++ trimStart rest = rest :=
        List.takeWhile_append_dropWhile
      have blank : AllSpace (rest.takeWhile isSpace) := fun _ hc => List.mem_takeWhile_imp hc
      refine ⟨word :: taken, code, by rw [folded, ← List.append_cons], ?_⟩
      have whole : Handles (word :: words)
          (word.toList ++ ':' :: (rest.takeWhile isSpace ++ trimStart rest)) (word :: taken) code :=
        .taken blank (fun c first => Text.isSpace_head?_trimStart first) handles
      rwa [parts] at whole
    · rw [take_of_not_leads leads]
      obtain ⟨taken, code, folded, handles⟩ := ih s found
      exact ⟨taken, code, folded, .passed leads handles⟩

theorem handles_read (name : String) (value : Option String) :
    ∃ code, (Event.read name value).expr = .raw (String.ofList code) ∧
      Handles ["native", "capture"] (Text.trim (value.getD "").toList)
        (Event.read name value).modifiers code := by
  obtain ⟨taken, code, folded, handles⟩ :=
    exists_handles eventModifiers (Text.trim (value.getD "").toList) []
  rw [read_eq]
  dsimp only
  rw [folded]
  exact ⟨code, rfl, handles⟩

/-- Words that are written in the order in which they are looked for are all taken, and leave the
code. -/
theorem foldl_take {ms : List Modifier} (inOrder : (ms.map (·.word)).Sublist words)
    (distinct : words.Nodup) (plain : ∀ w ∈ words, IsWord w) (spaces : ∀ m ∈ ms, AllSpace m.space)
    (front : trimStart code = code) (bare : ∀ w ∈ words, ¬ Leads w code) (found : List String) :
    words.foldl take (found, trimEnd (handler ms code)) =
      (found ++ ms.map (·.word), trimEnd code) := by
  generalize written : ms.map (·.word) = ws at inOrder
  -- By how the written words lie among those looked for: each of these is passed over or is next.
  induction inOrder generalizing ms found with
  | slnil =>
    rw [List.map_eq_nil_iff.mp written, List.append_nil]
    rfl
  | @cons ws words w inOrder ih =>
    obtain ⟨fresh, distinct⟩ := List.nodup_cons.mp distinct
    have absent : ¬ Leads w (trimEnd (handler ms code)) := by
      intro leads
      cases ms with
      | nil => exact bare w List.mem_cons_self leads.of_trimEnd
      | cons m ms =>
        have listed : m.word ∈ words := inOrder.subset (written ▸ List.mem_cons_self)
        have word := plain _ (List.mem_cons_of_mem w listed)
        obtain rfl := (leads_iff (plain w List.mem_cons_self) word _).mp leads.of_trimEnd
        exact fresh listed
    rw [List.foldl_cons, take_of_not_leads absent]
    exact ih distinct (fun w hw => plain w (List.mem_cons_of_mem _ hw)) spaces
      (fun w hw => bare w (List.mem_cons_of_mem _ hw)) found written
  | @cons_cons ws words w inOrder ih =>
    obtain ⟨m, ms, rfl, rfl, rfl⟩ := List.map_eq_cons_iff.mp written
    obtain ⟨-, distinct⟩ := List.nodup_cons.mp distinct
    have known := fun w hw => plain w (List.mem_cons_of_mem _ hw)
    have rest : trimStart (handler ms code) = handler ms code := by
      refine trimStart_handler (fun k hk => known _ (inOrder.subset ?_)) front
      exact List.mem_map_of_mem hk
    have left : trimStart (trimEnd (m.space ++ handler ms code)) = trimEnd (handler ms code) := by
      rw [Text.trimStart_trimEnd, Text.trim, Text.trimStart_append (spaces m List.mem_cons_self),
        rest]
    rw [List.foldl_cons, handler_cons, Text.trimEnd_append_cons (by decide), take_of_leads, left,
      ih distinct known (fun k hk => spaces k (List.mem_cons_of_mem m hk))
        (fun w hw => bare w (List.mem_cons_of_mem _ hw)) _ rfl,
      List.append_assoc]
    rfl

theorem isWord_of_mem_eventModifiers {w : String} (listed : w ∈ eventModifiers) : IsWord w := by
  have words :
      (eventModifiers.all fun w => w.toList.all fun c => c != ':' && !isSpace c) = true := by
    decide
  intro c hc
  have letter := List.all_eq_true.mp (List.all_eq_true.mp words w listed) c hc
  simpa using letter

/-- Different modifiers are written in the order in which they are looked for, or the second of
them stands before the first. -/
theorem sublist_or_swapped {ws : List String} (known : ∀ w ∈ ws, w ∈ eventModifiers)
    (distinct : ws.Nodup) : ws.Sublist eventModifiers ∨ ws = ["capture", "native"] := by
  have few : ws.length ≤ 2 := (List.subperm_of_subset distinct known).length_le
  have either {w : String} (listed : w ∈ ws) : w = "native" ∨ w = "capture" := by
    simpa [eventModifiers] using known w listed
  match ws with
  | [] => exact .inl (List.nil_sublist _)
  | [w] => exact .inl (List.singleton_sublist.mpr (known w List.mem_cons_self))
  | [v, w] =>
    rcases either (w := v) (by simp) with rfl | rfl <;>
      rcases either (w := w) (by simp) with rfl | rfl
    · simp at distinct
    · exact .inl (.refl _)
    · exact .inr rfl
    · simp at distinct
  | _ :: _ :: _ :: _ => simp at few

/-- The first word is looked for in vain where the second is written before it, and then the second
is taken off alone. -/
theorem foldl_take_swapped {first last : Modifier} (front : first.word = "capture")
    (back : last.word = "native") (space : AllSpace first.space) (start : trimStart code = code) :
    eventModifiers.foldl take ([], trimEnd (handler [first, last] code)) =
      (["capture"], trimEnd (handler [last] code)) := by
  have native : IsWord "native" := isWord_of_mem_eventModifiers (by decide)
  have capture : IsWord "capture" := isWord_of_mem_eventModifiers (by decide)
  have absent : ¬ Leads "native" (trimEnd (handler [first, last] code)) := by
    intro leads
    have same := (leads_iff native (front ▸ capture) _).mp leads.of_trimEnd
    rw [front] at same
    exact absurd same (by decide)
  have absent' : ¬ Leads "capture" (handler [last] code) := by
    intro leads
    have same := (leads_iff capture (back ▸ native) _).mp leads
    rw [back] at same
    exact absurd same (by decide)
  have word : [first].map (·.word) = ["capture"] := congrArg (fun w => [w]) front
  have start' : trimStart (handler [last] code) = handler [last] code :=
    trimStart_handler (List.forall_mem_singleton.mpr (back ▸ native)) start
  have one : ["capture"].foldl take ([], trimEnd (handler [first] (handler [last] code))) =
      (["capture"], trimEnd (handler [last] code)) := by
    rw [foldl_take (word ▸ .refl _) (by simp)
      (List.forall_mem_singleton.mpr capture) (List.forall_mem_singleton.mpr space) start'
      (List.forall_mem_singleton.mpr absent') [], word]
    rfl
  rw [eventModifiers, List.foldl_cons, take_of_not_leads absent]
  exact one

/-- The event of an attribute whose value is a trimmed handler after different modifiers. Those that
are written in the order in which they are looked for are all taken, and the code is the handler.
The only other order is `capture` before `native`, where `native` is not taken and stays in the
code. -/
theorem modifiers_of_handler (d : Delimiters) {tag : Tag} {a : Attribute} {name : String}
    {ms : List Modifier} {code : List Char} (listed : a ∈ tag.attributes)
    (event : a.name = "on-" ++ name) (value : a.value = some (String.ofList (handler ms code)))
    (known : ∀ m ∈ ms, m.word ∈ eventModifiers) (distinct : (ms.map (·.word)).Nodup)
    (spaces : ∀ m ∈ ms, AllSpace m.space) (trimmed : Trimmed code)
    (bare : ∀ w ∈ eventModifiers, ¬ Leads w code) :
    let e := Event.read name a.value
    e ∈ (Node.ofTag d tag).events ∧ e.name = name ∧
      ((ms.map (·.word)).Sublist eventModifiers ∧ e.modifiers = ms.map (·.word) ∧
          e.expr = .raw (String.ofList code) ∨
        ∃ first last, ms = [first, last] ∧ first.word = "capture" ∧ last.word = "native" ∧
          e.modifiers = ["capture"] ∧
          e.expr = .raw (String.ofList (trimEnd (handler [last] code)))) := by
  have words (w : String) (hw : w ∈ eventModifiers) := isWord_of_mem_eventModifiers hw
  have plain (m : Modifier) (hm : m ∈ ms) := words m.word (known m hm)
  have start := trimmed.trimStart_eq
  have text : Text.trim (a.value.getD "").toList = trimEnd (handler ms code) := by
    rw [value, Option.getD_some, String.toList_ofList, Text.trim, trimStart_handler plain start]
  refine ⟨List.mem_filterMap.mpr ⟨a, listed, by rw [event, Role.ofName_event]⟩, rfl, ?_⟩
  rw [read_eq, text]
  dsimp only
  have all : ∀ w ∈ ms.map (·.word), w ∈ eventModifiers := by simpa using known
  rcases sublist_or_swapped all distinct with inOrder | swapped
  · left
    rw [foldl_take inOrder (by decide) words spaces start bare [], trimmed.trimEnd_eq]
    exact ⟨inOrder, rfl, rfl⟩
  · right
    obtain ⟨first, rest, rfl, front, rest'⟩ := List.map_eq_cons_iff.mp swapped
    obtain ⟨last, rfl, back⟩ := List.map_eq_singleton_iff.mp rest'
    rw [foldl_take_swapped front back (spaces first List.mem_cons_self) start]
    exact ⟨first, last, rfl, front, back, rfl, rfl⟩

/-- `native` is not taken after `capture`, and is left in the code. -/
theorem native_left_after_capture :
    let first : Modifier := ⟨"capture", [' ']⟩
    let last : Modifier := ⟨"native", []⟩
    let code := "f()".toList
    let a : Attribute := ⟨"on-click", some "capture: native:f()", default⟩
    let e := Event.read "click" a.value
    a.value = some (String.ofList (handler [first, last] code)) ∧
      (∀ m ∈ [first, last], m.word ∈ eventModifiers ∧ AllSpace m.space) ∧
      ([first, last].map (·.word)).Nodup ∧ Trimmed code ∧
      (∀ w ∈ eventModifiers, ¬ Leads w code) ∧
      e ∈ (Node.ofTag {} ⟨"p", [a], false⟩).events ∧
      e.modifiers = ["capture"] ∧ e.expr = .raw "native:f()" := by
  intro first last code a e
  have value : a.value = some (String.ofList (handler [first, last] code)) := by decide +kernel
  have known : ∀ m ∈ [first, last], m.word ∈ eventModifiers := by
    simp [first, last, eventModifiers]
  have spaces : ∀ m ∈ [first, last], AllSpace m.space := by
    simp [first, last, AllSpace]
    decide
  have distinct : ([first, last].map (·.word)).Nodup := by simp [first, last]
  have trimmed : Trimmed code := by decide +kernel
  have bare : ∀ w ∈ eventModifiers, ¬ Leads w code := by decide +kernel
  have listed : a ∈ (Tag.mk "p" [a] false).attributes := List.mem_cons_self
  have named : a.name = "on-" ++ "click" := rfl
  obtain ⟨event, -, read⟩ :=
    modifiers_of_handler {} listed named value known distinct spaces trimmed bare
  refine ⟨value, fun m hm => ⟨known m hm, spaces m hm⟩, distinct, trimmed, bare, event, ?_⟩
  rcases read with ⟨inOrder, -⟩ | ⟨first', last', same, -, -, modifiers, code'⟩
  · exact absurd inOrder (by decide)
  · obtain ⟨-, rfl⟩ : first = first' ∧ last = last' := by simpa using same
    have left : trimEnd (handler [last] code) = "native:f()".toList := by decide +kernel
    exact ⟨modifiers, by rw [code', left, String.ofList_toList]⟩

end Event

end ComponentLoader.Template
