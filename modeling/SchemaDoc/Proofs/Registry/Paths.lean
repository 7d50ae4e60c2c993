import Mathlib.Data.List.Induction
import SchemaDoc.Proofs.Registry.Pointers
import SchemaDoc.Registry.Basic

/-!
# Paths written as pointers

A *path* is a list of steps, each to the member of an object under a key or to the item of an array
at a position, `Json.atPath?`.  Written as a pointer a step is a text, so that a key and a position
may be written alike.  A value never misreads a step that it has.  It may misread one that it does
not have, `Json.Misreads`: an array takes a key for a position if it can, and an object takes any
position for a key.

`Resource.follow_path` says where the pointer of a path leads.  If the path crosses a value that is
a resource of its own, `Json.Crosses`, it leads nowhere, however the path goes on.  Otherwise it
leads to the value at the path, and to nothing if the first step that is missing is not misread.

A key is read back in one pass over its text.  `Pointer.unescape_eq_replacePair` says that this is
to replace `~1` first and `~0` in what that gives.
-/

namespace SchemaDoc

/-! ## Paths -/

/-- A step from a value to one right inside it. -/
inductive Step where
  /-- To the member of an object under a key. -/
  | key (name : String)
  /-- To the item of an array at a position. -/
  | position (index : Nat)
deriving DecidableEq, Repr

namespace Json

/-- The value one step inside another.  Only objects have keys and only arrays positions. -/
def atStep? : Json → Step → Option Json
  | .object members, .key name => Table.get? members name
  | .array items, .position index => items[index]?
  | _, _ => none

/-- The value at a path inside another. -/
def atPath? (value : Json) : List Step → Option Json
  | [] => some value
  | step :: rest => (value.atStep? step).bind fun next => next.atPath? rest

/-- An object whose identifier is a text that does not begin with `#` is a resource of its own. -/
def IsResource (value : Json) : Prop :=
  ∃ members id, value = .object members ∧ Table.get? members "$id" = some (.string id) ∧
    id.toList.head? ≠ some '#'

/-- A path leads onto a resource of its own, at its end or before. -/
def Crosses (value : Json) (path : List Step) : Prop :=
  ∃ front inner, front ≠ [] ∧ front <+: path ∧ value.atPath? front = some inner ∧
    inner.IsResource

/-- A value takes a step that it does not have for another one. -/
def Misreads : Json → Step → Prop
  | .array items, .key name => ∃ index < items.length, Pointer.index? name.toList = some index
  | .object members, .position index => (Table.get? members (toString index)).isSome
  | _, _ => False

theorem isSome_declaredId? (value : Json) : value.declaredId?.isSome = true ↔ value.IsResource := by
  rw [Option.isSome_iff_exists]
  constructor
  · rintro ⟨id, h⟩
    rw [declaredId?, Option.filter_eq_some_iff, Option.bind_eq_some_iff] at h
    obtain ⟨⟨inner, found, text⟩, plain⟩ := h
    cases value with
    | object members =>
      cases inner with
      | string text' =>
        obtain rfl := Option.some.inj text
        exact ⟨members, text', rfl, found, by simpa using plain⟩
      | _ => cases text
    | _ => cases found
  · rintro ⟨members, id, rfl, found, plain⟩
    exact ⟨id, by simpa [declaredId?, get?, found, asString?] using plain⟩

instance : DecidablePred IsResource := fun value => decidable_of_iff _ value.isSome_declaredId?

theorem not_crosses_nil (value : Json) : ¬value.Crosses [] := fun ⟨_, _, nonempty, starts, _⟩ =>
  nonempty (List.prefix_nil.mp starts)

/-- A path crosses a resource at its first step or later. -/
theorem crosses_cons {value : Json} {step : Step} {rest : List Step} :
    value.Crosses (step :: rest) ↔
      ∃ next, value.atStep? step = some next ∧ (next.IsResource ∨ next.Crosses rest) := by
  constructor
  · rintro ⟨front, inner, nonempty, starts, reached, resource⟩
    obtain ⟨first, more, rfl⟩ := List.exists_cons_of_ne_nil nonempty
    obtain ⟨rfl, before⟩ := List.cons_prefix_cons.mp starts
    obtain ⟨next, hn, along⟩ := Option.bind_eq_some_iff.mp reached
    refine ⟨next, hn, ?_⟩
    cases more with
    | nil =>
      obtain rfl := Option.some.inj along
      exact .inl resource
    | cons second more => exact .inr ⟨_, inner, List.cons_ne_nil _ _, before, along, resource⟩
  · rintro ⟨next, hn, resource | ⟨front, inner, -, starts, along, resource⟩⟩
    · refine ⟨[step], next, List.cons_ne_nil _ _, ?_, ?_, resource⟩
      · exact List.cons_prefix_cons.mpr ⟨rfl, List.nil_prefix⟩
      · simp [atPath?, hn]
    · refine ⟨step :: front, inner, List.cons_ne_nil _ _, ?_, ?_, resource⟩
      · exact List.cons_prefix_cons.mpr ⟨rfl, starts⟩
      · simp [atPath?, hn, along]

instance decidableCrosses (value : Json) : (path : List Step) → Decidable (value.Crosses path)
  | [] => .isFalse value.not_crosses_nil
  | step :: rest =>
    match hs : value.atStep? step with
    | none => .isFalse fun crosses => by
      obtain ⟨next, hn, -⟩ := crosses_cons.mp crosses
      cases hs.symm.trans hn
    | some next =>
      have := decidableCrosses next rest
      decidable_of_iff (next.IsResource ∨ next.Crosses rest) (by simp [crosses_cons, hs])

end Json

/-! ## Paths as pointers -/

/-- What a step is written as, before it is put into a pointer. -/
def Step.name : Step → String
  | .key name => name
  | .position index => toString index

/-- A step in a pointer.  Only keys have to be escaped. -/
def Step.text : Step → List Char
  | .key name => Pointer.escape name.toList
  | .position index => (toString index).toList

namespace Pointer

/-- The pointer that a path is written as. -/
def ofPath (path : List Step) : String :=
  String.join (path.map fun step => "/" ++ String.ofList step.text)

example : ofPath [.key "~/", .position 10, .key ""] = "/~0~1/10/" := by decide +kernel

theorem unescape_of_not_mem {step : List Char} (h : '~' ∉ step) : unescape step = step := by
  induction step with
  | nil => rfl
  | cons c rest ih =>
    rw [List.mem_cons, not_or] at h
    rw [unescape_cons (Ne.symm h.1), ih h.2]

theorem digit_of_mem_toString {index : Nat} {c : Char} (h : c ∈ (toString index).toList) :
    c.isDigit = true := by
  rw [Nat.toString_eq_ofList_toDigits, String.toList_ofList] at h
  exact Nat.isDigit_of_mem_toDigits (by decide) (by decide) h

/-- A step survives being written. -/
theorem unescape_text (step : Step) : unescape step.text = step.name.toList := by
  cases step with
  | key name => exact unescape_escape name.toList
  | position index =>
    exact unescape_of_not_mem fun h => absurd (digit_of_mem_toString h) (by decide)

theorem slash_text (step : Step) : '/' ∉ step.text := by
  cases step with
  | key name => exact slash_escape name.toList
  | position index => exact fun h => absurd (digit_of_mem_toString h) (by decide)

/-- A path is followed step by step. -/
theorem follow_ofPath (value : Json) (path : List Step) :
    follow value (ofPath path) = descend value (path.map Step.text) := by
  induction path using List.reverseRecOn with
  | nil => rfl
  | append_singleton front step ih =>
    have written : ofPath (front ++ [step]) = ofPath front ++ "/" ++ String.ofList step.text := by
      simp [ofPath, String.join_append, String.append_assoc]
    rw [written, follow_append value _ (slash_text step), ih, List.map_append, descend_append]
    rfl

/-! ### Reading keys in two passes -/

/-- A text with two characters in a row replaced by one, wherever they stand. -/
def replacePair (first second new : Char) : List Char → List Char
  | c :: d :: rest =>
    if c = first ∧ d = second then new :: replacePair first second new rest
    else c :: replacePair first second new (d :: rest)
  | cs => cs

theorem replacePair_cons {first second new c : Char} {rest : List Char}
    (h : c = first → rest.head? ≠ some second) :
    replacePair first second new (c :: rest) = c :: replacePair first second new rest := by
  cases rest with
  | nil => rfl
  | cons d more => rw [replacePair, if_neg fun both => h both.1 (congrArg some both.2)]

/-- Replacing puts no other character first than was there or is put in. -/
theorem head?_replacePair {first second new c : Char} {cs : List Char} (h : c ≠ new)
    (hc : (replacePair first second new cs).head? = some c) : cs.head? = some c := by
  match cs with
  | [] | [_] => exact hc
  | a :: b :: rest =>
    rw [replacePair] at hc
    split at hc
    · exact absurd (Option.some.inj hc).symm h
    · exact hc

/-- Slashes are put back first, and then tildes: in the other order `~01` would be read as a
slash. -/
theorem unescape_eq_replacePair (cs : List Char) :
    unescape cs = replacePair '~' '0' '~' (replacePair '~' '1' '/' cs) := by
  fun_induction unescape cs with
  | case1 rest ih =>
    rw [replacePair, if_pos ⟨rfl, rfl⟩, replacePair_cons fun slash => absurd slash (by decide), ih]
  | case2 rest ih =>
    have digit : replacePair '~' '1' '/' ('0' :: rest) = '0' :: replacePair '~' '1' '/' rest :=
      replacePair_cons fun zero => absurd zero (by decide)
    rw [replacePair, if_neg (by decide), digit, replacePair, if_pos ⟨rfl, rfl⟩, ih]
  | case3 c rest one zero ih =>
    -- A tilde that stays has no digit behind it, and none gets there.
    have noOne (tilde : c = '~') : rest.head? ≠ some '1' := fun h => by
      obtain ⟨more, rfl⟩ := List.head?_eq_some_iff.mp h
      exact one more tilde rfl
    have noZero (tilde : c = '~') : rest.head? ≠ some '0' := fun h => by
      obtain ⟨more, rfl⟩ := List.head?_eq_some_iff.mp h
      exact zero more tilde rfl
    rw [replacePair_cons noOne,
      replacePair_cons fun tilde h => noZero tilde (head?_replacePair (by decide) h), ih]
  | case4 => rfl

example : replacePair '~' '1' '/' (replacePair '~' '0' '~' ['~', '0', '1']) = ['/'] := by decide

end Pointer

/-! ## Where a path leads -/

namespace Json

open Pointer

variable {value next : Json} {step : Step}

/-- A step that a value has is read as it was meant. -/
theorem child?_of_atStep? (h : value.atStep? step = some next) :
    child? value (unescape step.text) = some next := by
  rw [unescape_text]
  match value, step with
  | .object members, .key name =>
    rw [child?, Step.name, String.ofList_toList]
    exact h
  | .array items, .position index =>
    rw [child?, Step.name, index?_toString]
    exact h

/-- A step that a value does not have leads nowhere, unless it is misread. -/
theorem child?_eq_none (missing : value.atStep? step = none) (meant : ¬value.Misreads step) :
    child? value (unescape step.text) = none := by
  rw [unescape_text]
  match value, step with
  | .object members, .key name =>
    rw [child?, Step.name, String.ofList_toList]
    exact missing
  | .object members, .position index =>
    rw [child?, Step.name, String.ofList_toList]
    exact Option.not_isSome_iff_eq_none.mp meant
  | .array items, .position index =>
    rw [child?, Step.name, index?_toString]
    exact missing
  | .array items, .key name =>
    rw [child?, Step.name, Option.bind_eq_none_iff]
    intro index hi
    rw [List.getElem?_eq_none_iff]
    exact Nat.le_of_not_lt fun lt => meant ⟨index, lt, hi⟩
  | .null, _ | .bool _, _ | .number _, _ | .string _, _ => rfl

/-- One step that a value has leads on, unless it leads onto a resource. -/
theorem descend_cons (h : value.atStep? step = some next) (inside : ¬next.IsResource)
    (steps : List (List Char)) : descend value (step.text :: steps) = descend next steps := by
  have plain : next.declaredId?.isSome = false := by
    rw [Bool.eq_false_iff]
    exact mt next.isSome_declaredId?.mp inside
  rw [descend, child?_of_atStep? h]
  simp only [plain, Bool.false_eq_true, if_false]

theorem descend_of_crosses {path : List Step} (h : value.Crosses path) :
    descend value (path.map Step.text) = .error .innerResource := by
  induction path generalizing value with
  | nil => exact absurd h value.not_crosses_nil
  | cons step rest ih =>
    obtain ⟨next, hn, onto⟩ := crosses_cons.mp h
    rw [List.map_cons]
    by_cases resource : next.IsResource
    · rw [descend, child?_of_atStep? hn]
      simp only [next.isSome_declaredId?.mpr resource, if_true]
    · rw [descend_cons hn resource]
      exact ih (onto.resolve_left resource)

/-- A path that crosses no resource is followed to where it leads. -/
theorem descend_of_atPath? {front : List Step} (inside : ¬value.Crosses front)
    (h : value.atPath? front = some next) (steps : List (List Char)) :
    descend value (front.map Step.text ++ steps) = descend next steps := by
  induction front generalizing value with
  | nil =>
    obtain rfl := Option.some.inj h
    rfl
  | cons step rest ih =>
    obtain ⟨inner, hi, along⟩ := Option.bind_eq_some_iff.mp h
    have apart := not_or.mp fun onto => inside (crosses_cons.mpr ⟨inner, hi, onto⟩)
    rw [List.map_cons, List.cons_append, descend_cons hi apart.1]
    exact ih apart.2 along

end Json

namespace Resource

open Pointer

/-- The pointer of a path leads to the value at the path.  It is refused if the path crosses a
resource, and leads nowhere if a step is missing before that and is not misread. -/
theorem follow_path (resource : Resource) (uri : String) (path : List Step) :
    (resource.contents.Crosses path →
      resource.follow uri (ofPath path) =
        .error (.malformedReference uri (ofPath path) .innerResource)) ∧
    (¬resource.contents.Crosses path → ∀ value, resource.contents.atPath? path = some value →
      resource.follow uri (ofPath path) = .ok value) ∧
    (∀ front inner step back, path = front ++ step :: back →
      ¬resource.contents.Crosses front → resource.contents.atPath? front = some inner →
      inner.atStep? step = none → ¬inner.Misreads step →
      resource.follow uri (ofPath path) = .error (.pointerToNowhere uri (ofPath path))) := by
  simp only [follow, follow_ofPath]
  refine ⟨fun crosses => ?_, fun inside value h => ?_, ?_⟩
  · rw [Json.descend_of_crosses crosses]
  · have reached := Json.descend_of_atPath? inside h []
    rw [List.append_nil] at reached
    rw [reached]
    rfl
  · rintro front inner step back rfl inside h missing meant
    rw [List.map_append, List.map_cons, Json.descend_of_atPath? inside h, descend,
      Json.child?_eq_none missing meant]

/-- A key with both characters that are escaped, an item that is missing, and a step into a
resource that is embedded. -/
theorem sample_follow_path :
    (ofContents sample).follow "Root" "/a~1~0b/1" = .ok (.string "x") ∧
      (ofContents sample).follow "Root" "/a~1~0b/2" =
        .error (.pointerToNowhere "Root" "/a~1~0b/2") ∧
      (ofContents sample).follow "Root" "/inner/deeper" =
        .error (.malformedReference "Root" "/inner/deeper" .innerResource) := by
  have found : ofPath [.key "a/~b", .position 1] = "/a~1~0b/1" := by decide +kernel
  have missing : ofPath [.key "a/~b", .position 2] = "/a~1~0b/2" := by decide +kernel
  have crossing : ofPath [.key "inner", .key "deeper"] = "/inner/deeper" := by decide +kernel
  rw [← found, ← missing, ← crossing]
  refine ⟨?_, ?_, ?_⟩
  · exact (follow_path (ofContents sample) "Root" _).2.1 (by decide +kernel) _ rfl
  · exact (follow_path (ofContents sample) "Root" _).2.2 [.key "a/~b"] _ (.position 2) [] rfl
      (by decide +kernel) rfl rfl not_false
  · exact (follow_path (ofContents sample) "Root" _).1 (by decide +kernel)

/-- An array has no keys, but a key that is written as a position leads to an item. -/
theorem not_follow_missing :
    ¬∀ (resource : Resource) (uri : String) (path front back : List Step) (inner : Json)
      (step : Step), path = front ++ step :: back → ¬resource.contents.Crosses front →
      resource.contents.atPath? front = some inner → inner.atStep? step = none →
      resource.follow uri (ofPath path) = .error (.pointerToNowhere uri (ofPath path)) := by
  intro leadsNowhere
  have missing := leadsNowhere (ofContents (.array [.null])) "Root" [.key "0"] [] [] _ (.key "0")
    rfl (Json.not_crosses_nil _) rfl rfl
  have found : (ofContents (.array [.null])).follow "Root" (ofPath [.key "0"]) = .ok .null := rfl
  cases found.symm.trans missing

end Resource

end SchemaDoc
