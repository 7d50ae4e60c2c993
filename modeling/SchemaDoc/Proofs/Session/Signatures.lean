import SchemaDoc.Proofs.Session.Closure
import SchemaDoc.Proofs.Session.Cycles
import SchemaDoc.Proofs.Session.Inherited
import SchemaDoc.Session.Print

/-!
# The names in a signature

A signature *shows* a name if its text depends on how that name is written, `Session.Shows`.  To
say so, signatures are written with a parameter for that, `Session.printAs`.

In a *complete* session every name that is shown is that of a type which may not be inlined,
`Session.Complete.of_shows`.  All targets are in the cache, and what may be inlined is older than
the type it is inlined in, so no target is met inside itself and the limit on targets inside each
other is never met.  After loads that all succeed a session is complete.
-/

namespace SchemaDoc

/-! ## Texts that agree -/

/-- The text of a type is a matter of how its targets are written. -/
theorem Ty.printWith_congr {show₁ show₂ : String → Bool → String} (ty : Ty) :
    (∀ target ∈ ty.targets, ∀ parens, show₁ target parens = show₂ target parens) →
      ∀ parens, ty.printWith show₁ parens = ty.printWith show₂ parens := by
  induction ty using Ty.induct with
  | step ty ih =>
    intro h parens
    have each : ∀ child ∈ ty.children, ∀ parens,
        child.printWith show₁ parens = child.printWith show₂ parens := fun child hc =>
      ih child hc fun target ht => h target (targets_subset_of_child hc ht)
    obtain ⟨notes, const, shape⟩ := ty
    cases shape with
    | leaf _ => cases const <;> rfl
    | reference target =>
      simp only [printWith]
      exact h target (mem_targets_of_target? rfl) parens
    | object members rest =>
      cases members with
      | nil =>
        cases rest with
        | none => simp only [printWith]
        | some rest => simp only [printWith, each rest List.mem_cons_self]
      | cons member members =>
        have same : printMembers show₁ (member :: members) =
            printMembers show₂ (member :: members) := by
          rw [printMembers_eq_map, printMembers_eq_map]
          refine List.map_congr_left fun entry he => ?_
          rw [each entry.2 (List.mem_append_left _ (List.mem_map_of_mem he))]
        simp only [printWith, same]
    | array unique item => simp only [printWith, each item List.mem_cons_self]
    | tuple items tail =>
      have same : printItems show₁ false items = printItems show₂ false items := by
        rw [printItems_eq_map, printItems_eq_map]
        exact List.map_congr_left fun item hi => each item (List.mem_append_left _ hi) false
      cases tail with
      | none => simp only [printWith, same]
      | some tail =>
        have last := each tail (List.mem_append_right _ List.mem_cons_self) true
        simp only [printWith, same, last]
    | union form items nullable =>
      have same : printPresent show₁ items = printPresent show₂ items := by
        rw [printPresent_eq_map, printPresent_eq_map]
        exact List.map_congr_left fun item hi => each item (List.mem_filter.mp hi).1 true
      simp only [printWith, same]
    | intersection items =>
      have same : printItems show₁ true items = printItems show₂ true items := by
        rw [printItems_eq_map, printItems_eq_map]
        exact List.map_congr_left fun item hi => each item hi true
      simp only [printWith, same]

/-- What is said about a type does not matter to its text. -/
theorem Ty.printWith_annotate (showReference : String → Bool → String) (parens : Bool) (ty : Ty)
    (change : Annotations → Annotations) :
    (ty.annotate change).printWith showReference parens = ty.printWith showReference parens := by
  obtain ⟨notes, const, shape⟩ := ty
  cases shape with
  | leaf _ => cases const <;> rfl
  | object members rest => cases members <;> cases rest <;> simp only [annotate, printWith]
  | tuple _ tail => cases tail <;> simp only [annotate, printWith]
  | _ => simp only [annotate, printWith]

/-- Only the shape and the constant of a type matter to its text. -/
theorem Ty.printWith_of_shape {showReference : String → Bool → String} {a b : Ty}
    (shape : a.shape = b.shape) (const : a.const = b.const) (parens : Bool) :
    a.printWith showReference parens = b.printWith showReference parens := by
  obtain ⟨notes, only, built⟩ := a
  cases shape
  cases const
  exact (printWith_annotate showReference parens b fun _ => notes)

namespace Session

theorem print_annotate (session : Session) (ty : Ty) (change : Annotations → Annotations)
    (parens : Bool) : session.print (ty.annotate change) parens = session.print ty parens :=
  Ty.printWith_annotate _ _ ty change

/-! ## Writing names -/

/-- A reference inside the signatures of some targets, given how a name is written. -/
def writeReference (session : Session) (write : String → String) :
    Nat → List String → String → Bool → String
  | 0, _, target, _ => write target
  | room + 1, expanding, target, parens =>
    match session.get? target with
    | none => write target
    | some ty =>
      if !session.canInline target || expanding.contains target then write target
      else ty.printWith (writeReference session write room (target :: expanding)) parens

/-- The signature of a type, given how a name is written. -/
def printAs (session : Session) (write : String → String) (ty : Ty) (parens : Bool) : String :=
  ty.printWith (writeReference session write session.cache.length []) parens

/-- The signature of a type depends on how a name is written. -/
def Shows (session : Session) (ty : Ty) (name : String) : Prop :=
  ∃ write : String → String, (∀ other, other ≠ name → write other = other) ∧
    session.printAs write ty false ≠ session.print ty false

example : sampleSession.Shows (.ofShape (.array false (.reference "Root"))) "Root" :=
  ⟨fun name => if name = "Root" then "_" else name, fun _ other => if_neg other, by decide +kernel⟩

variable {session : Session}

/-- A signature writes names as they are. -/
theorem writeReference_id (room : Nat) :
    ∀ expanding target parens,
      session.writeReference id room expanding target parens =
        session.showReference room expanding target parens := by
  induction room with
  | zero => exact fun _ _ _ => rfl
  | succ room ih =>
    intro expanding target parens
    rw [writeReference, showReference]
    cases session.get? target with
    | none => rfl
    | some ty =>
      dsimp only
      split
      · rfl
      · exact ty.printWith_congr (fun target _ => ih _ target) parens

theorem printAs_id (ty : Ty) (parens : Bool) :
    session.printAs id ty parens = session.print ty parens :=
  ty.printWith_congr (fun target _ => writeReference_id _ _ target) parens

/-! ## Complete sessions -/

/-- All types in the cache go by their names, which lead back to them and which no type inside them
has, their targets are in the cache, and what may be inlined is older than the type it is inlined
in. -/
structure Complete (session : Session) : Prop where
  nodup : session.cache.keys.Nodup
  named : session.get? "" = none
  ids : ∀ id ty, session.get? id = some ty → ty.id = id
  loads : ∀ id ty, session.get? id = some ty → session.load id = (.ok ty, session)
  anonymous : ∀ id ty, session.get? id = some ty → ∀ child ∈ ty.children,
    child.Everywhere Ty.IsAnonymous
  closed : ∀ id ty, session.get? id = some ty → ∀ target ∈ ty.targets,
    (session.get? target).isSome
  older : ∀ id target, session.Inlines id target → session.age target < session.age id

namespace Complete

variable (c : session.Complete)

include c

theorem ne_empty {id : String} (h : (session.get? id).isSome) : id ≠ "" := by
  rintro rfl
  rw [c.named] at h
  cases h

/-- What a type is written with is a matter of the names of types that may not be inlined.  The
targets that are written out and may be inlined grow older on the way inside. -/
theorem writeReference_eq {write : String → String}
    (hw : ∀ name, (session.get? name).isSome → session.canInline name = false → write name = name)
    (room : Nat) :
    ∀ expanding target parens, (session.get? target).isSome →
      (session.canInline target = true →
        session.age target < room ∧ ∀ outer ∈ expanding, session.age target < session.age outer) →
      session.writeReference write room expanding target parens =
        session.writeReference id room expanding target parens := by
  induction room with
  | zero =>
    intro expanding target parens cached young
    cases hi : session.canInline target with
    | false => exact hw target cached hi
    | true => exact absurd (young hi).1 (Nat.not_lt_zero _)
  | succ room ih =>
    intro expanding target parens cached young
    obtain ⟨ty, hg⟩ := Option.isSome_iff_exists.mp cached
    simp only [writeReference, hg]
    cases hi : session.canInline target with
    | false => exact hw target cached hi
    | true =>
      obtain ⟨enough, older⟩ := young hi
      split
      · rename_i met
        simp only [Bool.not_true, Bool.false_or, List.contains_eq_mem, decide_eq_true_eq] at met
        exact absurd (older target met) (Nat.lt_irrefl _)
      · refine Ty.printWith_congr _ (fun inner ht parens => ?_) parens
        have known := c.closed target ty hg inner ht
        refine ih _ inner parens known fun hi => ?_
        have mem : inner ∈ session.targetsOf target := by rwa [targetsOf, hg]
        have younger := c.older target inner
          ⟨⟨c.ne_empty cached, c.ne_empty known, mem, known⟩, hi⟩
        refine ⟨by omega, List.forall_mem_cons.mpr ⟨younger, fun outer ho => ?_⟩⟩
        exact Nat.lt_trans younger (older outer ho)

/-- A name that is shown is that of a type which may not be inlined. -/
theorem of_shows {ty : Ty} (known : ∀ target ∈ ty.targets, (session.get? target).isSome)
    {name : String} (h : session.Shows ty name) :
    (session.get? name).isSome ∧ session.canInline name = false := by
  obtain ⟨write, others, differs⟩ := h
  by_contra away
  -- Then all names of such types are written as they are.
  have hw : ∀ other, (session.get? other).isSome → session.canInline other = false →
      write other = other := fun other cached hi => others other fun same =>
    away (same ▸ ⟨cached, hi⟩)
  refine differs ?_
  rw [← printAs_id]
  refine ty.printWith_congr (fun target ht parens => ?_) false
  refine c.writeReference_eq hw _ [] target parens (known target ht) fun _ => ⟨?_, nofun⟩
  have cached : target ∈ session.cache.keys := by
    by_contra out
    have missing := known target ht
    rw [Session.get?, Table.get?_eq_none_iff.mpr out] at missing
    cases missing
  rw [age, ← List.length_map Prod.fst]
  exact List.idxOf_lt_length_of_mem cached

end Complete

/-- After loads that all succeed a session is complete. -/
theorem complete_loadAll {registry : Registry} (keyword : String) (hb : registry.Built)
    (ha : registry.Addressed) (hs : registry.Separate) (uris : List String)
    (ok : (fresh registry.crawl keyword).loadsAll uris = true) :
    ((fresh registry.crawl keyword).loadAll uris).Complete := by
  have built := Registry.Built.crawl hb
  have named := Registry.named_crawl registry
  obtain ⟨hreg, -, sound⟩ := sound_loadAll keyword built named uris
  have closed := closed_loadAll built named (fresh_resting registry.crawl keyword)
    (fresh_sound registry.crawl keyword) nofun ok
  have rest := resting_loadAll uris (fresh_resting registry.crawl keyword)
  have given (place : Place)
      (h : ((fresh registry.crawl keyword).loadAll uris).registry.Found place) : place.name ≠ "" :=
    Registry.Found.name_ne_empty hb ha (hreg ▸ h)
  refine
    { nodup := cache_nodup _ keyword uris
      named := ?_
      ids := fun id ty hg => (closed id ty hg).id
      loads := fun id ty hg => ?_
      anonymous := fun id ty hg => cache_anonymous _ keyword uris hg
      closed := fun id ty hg => (closed id ty hg).targets (by rwa [hreg]) rest given
      older := fun id target hi => ?_ }
  · cases hg : ((fresh registry.crawl keyword).loadAll uris).get? "" with
    | none => rfl
    | some ty =>
      obtain ⟨front, back, hc, -⟩ := Table.split_of_get? hg
      obtain ⟨place, -, -, found, hid, -⟩ := sound.origin front _ ty back hc
      rw [hreg] at found
      exact absurd (Place.id_eq_empty hid).1 (Registry.Found.name_ne_empty hb ha found)
  · refine (closed id ty hg).load_id (by rwa [hreg]) rest given (fun uri resource hr => ?_) hg
    rw [hreg] at hr ⊢
    exact Registry.exists_nameAt hb hs hr
  · rw [← hreg] at built named
    exact sound.age_of_inlines built named (.single hi)

end Session

end SchemaDoc
