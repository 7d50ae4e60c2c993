import SchemaDoc.Proofs.Documentation.Walk

/-!
# The events of a documentation

Whoever receives the events of a documentation, as a page does with `Page.step`, keeps count of
the entries that are entered, `Event.depthAfter?`: none may be left where none is entered, and no
section may begin inside one.  Events are *nested* if they can be received at any depth and end at
that depth.

The events of whatever a walk makes are nested, since an entry is left after what is inside it.
Only a documentation as a whole has titles, and these stand outside all entries.  So its events
begin and end at depth zero, `Session.document_bracketed`, and from that alone each entry is left
exactly once, by the first event that leaves it balanced, `Event.leaves_once`.  If a name does
not load, nothing is received at all.
-/

namespace SchemaDoc

/-! ## Depths -/

namespace Event

/-- How many entries are entered after some events, if no more are left than were entered and
each title comes where none is. -/
def depthAfter? : Nat → List Event → Option Nat
  | depth, [] => some depth
  | 0, .title _ :: rest => depthAfter? 0 rest
  | _ + 1, .title _ :: _ => none
  | depth, .text _ :: rest => depthAfter? depth rest
  | depth, .enter _ :: rest => depthAfter? (depth + 1) rest
  | 0, .leave :: _ => none
  | depth + 1, .leave :: rest => depthAfter? depth rest

/-- Events that leave all entries that they enter, and no other, and have no title. -/
def Nested (events : List Event) : Prop := ∀ depth, depthAfter? depth events = some depth

theorem depthAfter?_append (events others : List Event) :
    ∀ depth, depthAfter? depth (events ++ others) =
      (depthAfter? depth events).bind fun depth => depthAfter? depth others := by
  induction events with
  | nil => exact fun _ => rfl
  | cons event rest ih =>
    intro depth
    cases event with
    | title text =>
      cases depth with
      | zero => exact ih 0
      | succ depth => rfl
    | text text => exact ih depth
    | enter entry => exact ih (depth + 1)
    | leave =>
      cases depth with
      | zero => rfl
      | succ depth => exact ih depth

theorem nested_nil : Nested [] := fun _ => rfl

theorem Nested.append {events others : List Event} (h : Nested events) (h' : Nested others) :
    Nested (events ++ others) := by
  intro depth
  rw [depthAfter?_append, h depth]
  exact h' depth

/-- An entry around nested events. -/
theorem Nested.entry {inner : List Event} (h : Nested inner) (entry : Entry) :
    Nested (.enter entry :: (inner ++ [.leave])) := by
  intro depth
  rw [depthAfter?, depthAfter?_append, h (depth + 1)]
  rfl

/-- What ends at a lower depth than it begins at leaves the innermost entry. -/
theorem exists_leave {events : List Event} {depth last : Nat}
    (h : depthAfter? (depth + 1) events = some last) (lower : last ≤ depth) :
    ∃ inner rest, events = inner ++ .leave :: rest ∧ Nested inner := by
  -- An entry on the way is left first, so what follows it is shorter by more than one event.
  induction hl : events.length using Nat.strongRecOn generalizing events depth with
  | ind length ih =>
    match events with
    | [] =>
      cases h
      exact absurd lower (Nat.not_succ_le_self depth)
    | .title _ :: rest => cases h
    | .text body :: rest =>
      have h : depthAfter? (depth + 1) rest = some last := h
      obtain ⟨inner, after, rfl, nested⟩ := ih rest.length (by simp [← hl]) h lower rfl
      exact ⟨.text body :: inner, after, rfl, nested⟩
    | .leave :: rest => exact ⟨[], rest, rfl, nested_nil⟩
    | .enter entry :: rest =>
      have h : depthAfter? (depth + 1 + 1) rest = some last := h
      obtain ⟨within, after, rfl, nested⟩ :=
        ih rest.length (by simp [← hl]) h (Nat.le_succ_of_le lower) rfl
      rw [depthAfter?_append, nested (depth + 1 + 1), Option.bind_some, depthAfter?] at h
      obtain ⟨inner, last, rfl, nested'⟩ := ih after.length (by simp [← hl]; omega) h lower rfl
      refine ⟨.enter entry :: (within ++ [.leave]) ++ inner, last, by simp, ?_⟩
      exact (nested.entry entry).append nested'

/-- Nested events do not go on with leaving the entry around them. -/
theorem Nested.eq_of_append {inner inner' rest rest' : List Event} (h : Nested inner)
    (h' : Nested inner') (same : inner ++ .leave :: rest = inner' ++ .leave :: rest') :
    inner = inner' := by
  have extended {short long : List Event} {event : Event} {after : List Event} (hs : Nested short)
      (hl : Nested long) (e : long = short ++ event :: after) : event ≠ .leave := by
    rintro rfl
    have none := hl 0
    rw [e, depthAfter?_append, hs 0] at none
    cases none
  rcases List.append_eq_append_iff.mp same with ⟨more, hm, hr⟩ | ⟨more, hm, hr⟩
  · cases more with
    | nil => rw [hm, List.append_nil]
    | cons event after =>
      cases hr
      exact absurd rfl (extended h h' hm)
  · cases more with
    | nil => rw [hm, List.append_nil]
    | cons event after =>
      cases hr
      exact absurd rfl (extended h' h hm)

/-- If events begin and end at depth zero, each entry that is entered is left by exactly one later
event, with nested events between. -/
theorem leaves_once {events front back : List Event} {entry : Entry}
    (h : depthAfter? 0 events = some 0) (he : events = front ++ .enter entry :: back) :
    ∃! inner, Nested inner ∧ ∃ rest, back = inner ++ .leave :: rest := by
  rw [he, depthAfter?_append] at h
  obtain ⟨depth, -, h⟩ := Option.bind_eq_some_iff.mp h
  obtain ⟨inner, rest, rfl, nested⟩ := exists_leave h (Nat.zero_le depth)
  refine ⟨inner, ⟨nested, rest, rfl⟩, ?_⟩
  rintro other ⟨nested', rest', same⟩
  exact (nested.eq_of_append nested' same).symm

end Event

/-! ## Blocks without titles -/

namespace Documentation

open Event (Nested)
open Block (eventsOfAll)

variable (doc : Documentation)

theorem nested_descriptionOf (ty : Ty) : Nested (eventsOfAll (descriptionOf ty)) := by
  rw [descriptionOf]
  cases ty.annotations.description <;> exact fun _ => rfl

/-- An entry is left after what is inside it. -/
theorem nested_entryBlocks (address : Address) (entry : Entry) (ty : Ty) {inner : Unit → List Block}
    (h : Nested (eventsOfAll (inner ()))) :
    Nested (eventsOfAll (doc.entryBlocks address entry ty inner)) := by
  rw [entryBlocks]
  split
  · exact Event.nested_nil
  · have within : Nested (eventsOfAll
        (descriptionOf ty ++ if doc.recursive then inner () else [])) := by
      rw [Block.eventsOfAll_append]
      refine (nested_descriptionOf ty).append ?_
      split
      · exact h
      · exact Event.nested_nil
    have around := within.entry
      { entry with required := ty.annotations.required, deprecated := ty.annotations.deprecated }
    simpa [eventsOfAll, Block.events] using around

/-- Walks make blocks whose events are nested. -/
theorem nested_walk (root : String) :
    Walk doc root (fun _ => True) fun blocks => Nested (eventsOfAll blocks) where
  child _ _ := trivial
  of_shape _ _ := trivial
  target _ _ _ := trivial
  nil := Event.nested_nil
  append h h' := by
    rw [Block.eventsOfAll_append]
    exact h.append h'
  property _ _ _ _ h := doc.nested_entryBlocks _ _ _ h
  value _ _ _ h := doc.nested_entryBlocks _ _ _ h

/-- The events of a type with a name are nested. -/
theorem nested_typeBlocks (ty : Ty) : Nested (eventsOfAll (doc.typeBlocks ty)) := by
  have walk := doc.nested_walk ty.id
  have under (path : String) (ty' : Ty) : Nested (eventsOfAll (doc.underAll ty.id path ty')) :=
    walk.underAll path trivial
  rw [typeBlocks]
  split
  · rw [unwrappedBlocks]
    split
    · exact Event.nested_nil
    · rw [Block.eventsOfAll_append]
      refine (nested_descriptionOf ty).append (walk.flatMap fun _ _ => ?_)
      exact doc.nested_entryBlocks _ _ _ (under _ _)
  · exact doc.nested_entryBlocks _ _ _ (under _ _)

/-- A title comes where no entry is entered. -/
theorem depthAfter?_blocks (title : Option String) (root : Ty) :
    Event.depthAfter? 0 (eventsOfAll (doc.blocks title root)) = some 0 := by
  refine of_typeBlocks (P := fun blocks => Event.depthAfter? 0 (eventsOfAll blocks) = some 0)
    rfl (fun h h' => ?_) (fun _ => rfl) (doc.nested_typeBlocks root 0)
    (fun entry _ => doc.nested_typeBlocks entry.2 0) title
  rw [Block.eventsOfAll_append, Event.depthAfter?_append, h]
  exact h'

end Documentation

/-! ## Receiving a documentation -/

namespace Session

/-- Load a name and hand the events of its documentation to a receiver. -/
def documentInto {σ : Type} (session : Session) (uri : String) (options : Documentation.Options)
    (receive : σ → Event → σ) (received : σ) : Except LoadError Unit × Session × σ :=
  match session.document uri options with
  | (.error error, after) => (.error error, after, received)
  | (.ok blocks, after) => (.ok (), after, (Block.eventsOfAll blocks).foldl receive received)

/-- What a name is documented with is the documentation of its type in the session after loading
it. -/
theorem blocks_of_document {session after : Session} {uri : String}
    {options : Documentation.Options} {blocks : List Block}
    (h : session.document uri options = (.ok blocks, after)) :
    ∃ root excluded, blocks = Documentation.blocks
      ⟨after, options.recursive, options.unwrap, excluded⟩ options.title root := by
  rw [document] at h
  split at h
  · cases h
  · rename_i root loaded _
    split at h
    · cases h
    · rename_i excluded last _
      cases h
      exact ⟨root, excluded, rfl⟩

/-- In whatever session, either a name cannot be documented and nothing is received, or events are
received that never leave more entries than were entered, have titles only outside entries, and
leave each entry exactly once. -/
theorem document_bracketed (session : Session) (uri : String) (options : Documentation.Options) :
    (∃ error after, ∀ {σ : Type} (receive : σ → Event → σ) (received : σ),
      session.documentInto uri options receive received = (.error error, after, received)) ∨
    ∃ events after,
      (∀ {σ : Type} (receive : σ → Event → σ) (received : σ),
        session.documentInto uri options receive received =
          (.ok (), after, events.foldl receive received)) ∧
      Event.depthAfter? 0 events = some 0 ∧
      ∀ front entry back, events = front ++ .enter entry :: back →
        ∃! inner, Event.Nested inner ∧ ∃ rest, back = inner ++ .leave :: rest := by
  rcases hd : session.document uri options with ⟨error | blocks, after⟩
  · exact .inl ⟨error, after, fun _ _ => by rw [documentInto, hd]⟩
  · have closed : Event.depthAfter? 0 (Block.eventsOfAll blocks) = some 0 := by
      obtain ⟨root, excluded, rfl⟩ := blocks_of_document hd
      exact Documentation.depthAfter?_blocks _ _ _
    refine .inr ⟨Block.eventsOfAll blocks, after, fun _ _ => by rw [documentInto, hd], closed, ?_⟩
    exact fun _ _ _ => Event.leaves_once closed

end Session

end SchemaDoc
