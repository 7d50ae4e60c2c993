import SchemaDoc.Proofs.Session.Origins

/-!
# Inlining runs in no circle

A page writes types out in place of references as long as they may be inlined, so a cycle of
such references would never come to an end.  There is none.  Of two types in the cache one of
which refers to the other, either the other is older or its name was marked as recursive,
`Sound.older_of_links`.  So a cycle of references has a name on it that was marked.

That needs a name for whatever is referred to: a resource that goes by the empty name is
referred to by the text of the reference, which may be a name of something else.  Crawling
leaves no such resource but that under the empty name itself, `Registry.named_crawl`.
-/

namespace SchemaDoc

open Relation (TransGen)

namespace Session

/-! ## Links between types -/

/-- The targets of a type in the cache. -/
def targetsOf (session : Session) (id : String) : List String :=
  match session.get? id with
  | some ty => ty.targets
  | none => []

/-- A type in the cache refers to another.  Types without a name do not count. -/
def Links (session : Session) (id target : String) : Prop :=
  id ≠ "" ∧ target ≠ "" ∧ target ∈ session.targetsOf id ∧ (session.get? target).isSome

/-- A type in the cache refers to another that may be written out in its place. -/
def Inlines (session : Session) (id target : String) : Prop :=
  session.Links id target ∧ session.canInline target = true

instance (session : Session) (id target : String) : Decidable (session.Links id target) :=
  inferInstanceAs (Decidable (_ ∧ _ ∧ _ ∧ _))

instance (session : Session) (id target : String) : Decidable (session.Inlines id target) :=
  inferInstanceAs (Decidable (_ ∧ _))

/-- The place of a name in the cache. -/
def age (session : Session) (id : String) : Nat := session.cache.keys.idxOf id

variable {session : Session} {places : List Place}

/-- The target of a reference is the name of the place, unless that has no name. -/
theorem target_of_mem_typeTo (hn : session.registry.Named) {base name : String}
    {reference : Schema.Reference} {place : Place} {scope : Scope}
    (hp : session.registry.placeOf base reference.text = .ok place)
    (ht : name ∈ (reference.typeTo place scope).targets) :
    name = "" ∨ name = "#" ∨ name = place.id := by
  rw [Schema.Reference.mem_targets_typeTo] at ht
  split at ht
  · rename_i empty
    rcases Registry.eq_empty_of_placeOf hn hp empty with text | text
    · exact .inl (ht.trans text)
    · exact .inr (.inl (ht.trans text))
  · exact .inr (.inr ht)

/-- A target of a type in the cache was compiled before it, or marked, or is no name. -/
theorem Sound.target_of_mem (hn : session.registry.Named) (h : session.Sound places)
    {front back : Table String Ty} {id name : String} {ty : Ty}
    (hc : session.cache = front ++ (id, ty) :: back) (ht : name ∈ ty.targets) :
    name = "" ∨ name = "#" ∨ (Table.get? front name).isSome ∨ name ∈ session.recursive := by
  obtain ⟨place, contents, types, -, -, -, rfl, answered⟩ := h.origin front id ty back hc
  rw [Ty.targets_withId] at ht
  obtain ⟨answer, hm, ht⟩ := Schema.mem_targets_build ht
  obtain ⟨reference, -, answers⟩ := exists_of_forall₂_right answered hm
  cases answers with
  | @kept other target hp hg =>
    rcases target_of_mem_typeTo hn hp ht with rfl | rfl | rfl
    · exact .inl rfl
    · exact .inr (.inl rfl)
    · exact .inr (.inr (.inl (by rw [hg]; rfl)))
  | @looped other hp marked _ =>
    rcases target_of_mem_typeTo hn hp ht with rfl | rfl | rfl
    · exact .inl rfl
    · exact .inr (.inl rfl)
    · exact .inr (.inr (.inr marked))

/-- No type in the cache goes by a lone number sign. -/
theorem Sound.get?_numberSign (hb : session.registry.Built) (h : session.Sound places) :
    session.get? "#" = none := by
  cases hg : session.get? "#" with
  | none => rfl
  | some ty =>
    obtain ⟨front, back, hc⟩ := List.append_of_mem (Table.mem_of_get? hg)
    obtain ⟨place, -, -, found, hid, -⟩ := h.origin front _ ty back hc
    exact absurd hid (found.id_ne_numberSign hb)

/-- If a type refers to another, that one is older or was marked. -/
theorem Sound.older_of_links (hb : session.registry.Built) (hn : session.registry.Named)
    (h : session.Sound places) {id target : String} (hl : session.Links id target) :
    session.age target < session.age id ∨ target ∈ session.recursive := by
  obtain ⟨-, given, ht, cached⟩ := hl
  rw [targetsOf] at ht
  split at ht
  · rename_i ty hg
    obtain ⟨front, back, hc, new⟩ := Table.split_of_get? hg
    rcases h.target_of_mem hn hc ht with rfl | rfl | older | marked
    · exact absurd rfl given
    · rw [h.get?_numberSign hb] at cached
      cases cached
    · left
      have keys : session.cache.keys = Table.keys front ++ id :: Table.keys back := by
        rw [hc]
        simp [Table.keys]
      have before : target ∈ Table.keys front := by
        by_contra out
        rw [Table.get?_eq_none_iff.mpr out] at older
        cases older
      rw [age, age, keys, List.idxOf_append_of_mem before,
        List.idxOf_append_of_notMem (Table.get?_eq_none_iff.mp new), List.idxOf_cons_self]
      exact List.idxOf_lt_length_of_mem before
    · exact .inr marked
  · cases ht

/-! ## Cycles -/

/-- A walk along links ends at an older type, or passes a name that was marked. -/
theorem Sound.older_of_walk (hb : session.registry.Built) (hn : session.registry.Named)
    (h : session.Sound places) {id : String} {walk : List String}
    (hw : (id :: walk).IsChain session.Links) (unmarked : ∀ name ∈ walk, name ∉ session.recursive)
    {last : String} (hl : walk.getLast? = some last) : session.age last < session.age id := by
  induction walk generalizing id with
  | nil => cases hl
  | cons next rest ih =>
    rw [List.isChain_cons_cons] at hw
    rw [List.forall_mem_cons] at unmarked
    have older := (h.older_of_links hb hn hw.1).resolve_right unmarked.1
    cases rest with
    | nil =>
      cases hl
      exact older
    | cons following others =>
      rw [List.getLast?_cons_cons] at hl
      exact Nat.lt_trans (ih hw.2 unmarked.2 hl) older

/-- What may be inlined was not marked. -/
theorem not_mem_recursive_of_inlines {id target : String} (h : session.Inlines id target) :
    target ∉ session.recursive := by
  obtain ⟨⟨-, given, -⟩, allowed⟩ := h
  simp only [canInline, Bool.or_eq_true, beq_iff_eq, given, false_or, Bool.and_eq_true,
    Bool.not_eq_true', List.contains_eq_mem, decide_eq_false_iff_not] at allowed
  exact allowed.1.1

theorem Sound.age_of_inlines (hb : session.registry.Built) (hn : session.registry.Named)
    (h : session.Sound places) {id target : String} (hi : TransGen session.Inlines id target) :
    session.age target < session.age id := by
  have step {id target : String} (hi : session.Inlines id target) :
      session.age target < session.age id :=
    (h.older_of_links hb hn hi.1).resolve_right (not_mem_recursive_of_inlines hi)
  induction hi with
  | single edge => exact step edge
  | tail _ edge ih => exact Nat.lt_trans (step edge) ih

/-- Whatever names are loaded, and whether they load or not, no cycle of types may be
inlined, and every cycle of references between types in the cache passes through a name that
was marked as recursive. -/
theorem inlining_acyclic {registry : Registry} (keyword : String) (hb : registry.Built)
    (hn : registry.Named) (uris : List String) :
    (∀ id, ¬ TransGen ((fresh registry keyword).loadAll uris).Inlines id id) ∧
      ∀ id walk, (id :: walk).IsChain ((fresh registry keyword).loadAll uris).Links →
        walk.getLast? = some id →
        ∃ name ∈ walk, name ∈ ((fresh registry keyword).loadAll uris).recursive := by
  obtain ⟨hreg, -, sound⟩ := sound_loadAll keyword hb hn uris
  generalize (fresh registry keyword).loadAll uris = session at *
  subst hreg
  refine ⟨fun id cycle => ?_, fun id walk hw hl => ?_⟩
  · exact Nat.lt_irrefl _ (sound.age_of_inlines hb hn cycle)
  · by_contra unmarked
    push Not at unmarked
    exact Nat.lt_irrefl _ (sound.older_of_walk hb hn hw unmarked hl)

/-- The sample refers to itself, and that was noticed. -/
theorem sample_inlining_acyclic :
    ¬ TransGen ((fresh (Registry.register {} "Root" sampleSchema).crawl "mark").loadAll
        ["Root"]).Inlines "Root" "Root" ∧
      ∃ name ∈ ["Root"], name ∈ ((fresh (Registry.register {} "Root" sampleSchema).crawl
        "mark").loadAll ["Root"]).recursive := by
  have acyclic := inlining_acyclic "mark" (.crawl (.register "Root" sampleSchema .empty))
    (Registry.named_crawl _) ["Root"]
  exact ⟨acyclic.1 "Root", acyclic.2 "Root" ["Root"] (by decide +kernel) rfl⟩

/-! ## A resource without a name -/

/-- A document that goes by the empty name, and another that goes by the name under which
the first is registered. -/
def misnamed : Registry :=
  (Registry.register {} "foo"
    (.object [("$id", .string ""), ("type", .string "string")])).register "bar"
    (.object [("$id", .string "foo"), ("type", .string "object"),
      ("properties", .object [("a", .object [("$ref", .string "foo")])])])

/-- Without crawling a type may refer to itself and be inlined there. -/
theorem not_inlining_acyclic :
    ¬ ∀ (registry : Registry) (keyword : String) (uris : List String), registry.Built →
      ∀ id, ¬ TransGen ((fresh registry keyword).loadAll uris).Inlines id id := by
  intro acyclic
  have edge : ((fresh misnamed "mark").loadAll ["bar"]).Inlines "foo" "foo" := by decide +kernel
  exact acyclic misnamed "mark" ["bar"] (.register _ _ (.register _ _ .empty)) "foo" (.single edge)

end Session

end SchemaDoc
