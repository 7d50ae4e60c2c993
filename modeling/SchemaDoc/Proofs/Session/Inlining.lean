import SchemaDoc.Proofs.Documentation.Covered

/-!
# Signatures inside others

A signature is written inside the targets around it, and these matter to it only where one of them
comes again.  If a type runs in no circle, none does, so its signature is the same inside all targets
that lead to it, `Session.printWith_inside`.  So a reference that may be inlined has the signature of
its target, `Session.print_of_target?`.

A circle is one of targets that documentation goes into.  That is enough, since a signature looks at
nothing else: it writes the properties of an object and not the type of all others, and the member of
an option and not null, `Ty.printWith_congr_of_enters`.
-/

namespace SchemaDoc

/-! ## Texts with a mark -/

/-- One text is another with the mark of what may be null, in parentheses maybe. -/
def Marks (marked text : String) : Prop :=
  marked = Ty.orNever text ++ "?" ∨ marked = "(" ++ text ++ ")" ++ "?"

/-- One text is another, in parentheses maybe. -/
def Encloses (enclosed text : String) : Prop := enclosed = text ∨ enclosed = "(" ++ text ++ ")"

namespace Ty

theorem orNever_of_ne {text : String} (h : text ≠ "") : orNever text = text := if_neg h

theorem encloses_parenthesize (text : String) :
    Encloses (parenthesize true text) (parenthesize false text) := .inr rfl

variable {show₁ show₂ : String → Bool → String} {ty item : Ty}

/-- An option in normal form is written as its member, with a mark. -/
theorem printWith_of_present? (normal : ty.IsNormal) (h : ty.present? = some item) (parens : Bool) :
    ty.printWith show₁ parens = orNever (item.printWith show₁ true) ++ "?" := by
  obtain ⟨notes, const, form, null, isNull, present, rfl | rfl⟩ := exists_of_present? normal h
  all_goals
    simp only [printWith, printPresent_eq_map, List.filter_cons, isNull, present, Bool.not_true,
      Bool.not_false, Bool.false_eq_true, if_true, if_false, List.filter_nil, List.map_cons,
      List.map_nil, String.intercalate_singleton, List.length_cons, List.length_nil, parenthesize]
    rfl

/-- The text of a type in normal form is a matter of how the targets that it enters are written. -/
theorem printWith_congr_of_enters (ty : Ty) : ty.Everywhere IsNormal →
    (∀ target, ty.Enters target → ∀ parens, show₁ target parens = show₂ target parens) →
      ∀ parens, ty.printWith show₁ parens = ty.printWith show₂ parens := by
  induction ty using Ty.induct with
  | step ty ih =>
    intro normal same parens
    have inPart {part : Ty} {parts : List Ty} (ho : ty.parts? = some parts) (hm : part ∈ parts)
        (parens : Bool) : part.printWith show₁ parens = part.printWith show₂ parens :=
      ih part (parts?_subset ho hm) (normal.inside part (parts?_subset ho hm))
        (fun target enters => same target (.part ho hm enters)) parens
    cases ty.layout with
    | option hp ho =>
      rw [printWith_of_present? normal.here hp, printWith_of_present? normal.here hp,
        inPart ho List.mem_cons_self]
    | @group _ _ member members _ ho =>
      have texts : printMembers show₁ (member :: members) = printMembers show₂ (member :: members) := by
        rw [printMembers_eq_map, printMembers_eq_map]
        refine List.map_congr_left fun entry he => ?_
        rw [inPart ho (List.mem_map_of_mem he)]
      simp only [printWith, texts]
    | @values _ _ items _ _ ho =>
      have texts : printPresent show₁ items = printPresent show₂ items := by
        rw [printPresent_eq_map, printPresent_eq_map]
        exact List.map_congr_left fun item hi => inPart ho (List.mem_filter.mp hi).1 true
      simp only [printWith, texts]
    | plain _ ho => exact printWith_congr ty (fun target ht => same target (.reference ho ht)) parens

/-- Parentheses go around a text or make no difference, if that is so for references. -/
theorem encloses_printWith (references : ∀ target, Encloses (show₁ target true) (show₁ target false))
    (ty : Ty) : Encloses (ty.printWith show₁ true) (ty.printWith show₁ false) := by
  obtain ⟨notes, const, shape⟩ := ty
  cases shape with
  | leaf _ => cases const <;> exact .inl rfl
  | reference target =>
    simp only [printWith]
    exact references target
  | object members rest => cases members <;> cases rest <;> simp only [printWith] <;> exact .inl rfl
  | array unique item =>
    simp only [printWith]
    exact .inl rfl
  | tuple items tail => cases tail <;> simp only [printWith] <;> exact .inl rfl
  | union form items nullable =>
    simp only [printWith]
    cases nullable with
    | true => exact .inl rfl
    | false => exact encloses_parenthesize _
  | intersection items =>
    simp only [printWith]
    exact encloses_parenthesize _

end Ty

namespace Session

variable {session : Session} {ty found child : Ty} {target : String} {expanding met : List String}

/-! ## Room for what is written out -/

/-- A reference inside the signatures of some targets.  There is room for the names that were not
met, and that is all the room there is use for. -/
def showInside (session : Session) (expanding : List String) : String → Bool → String :=
  session.showReference (session.unmet expanding) expanding

theorem showReference_room {room : Nat} (h : session.unmet expanding ≤ room) :
    session.showReference room expanding = session.showInside expanding := by
  rw [showInside, showReference_eq, showReference_eq, session.expansion_showStep.iterate_room h]

theorem print_eq (session : Session) (ty : Ty) (parens : Bool) :
    session.print ty parens = ty.printWith (session.showInside []) parens := by
  rw [print, showReference_room (session.unmet_le [])]

/-- A target that may be inlined is written out. -/
theorem showInside_of_get? (hg : session.get? target = some found)
    (inline : session.canInline target = true) (new : target ∉ expanding) (parens : Bool) :
    session.showInside expanding target parens =
      found.printWith (session.showInside (target :: expanding)) parens := by
  have less := unmet_cons_lt (by rw [hg]; rfl) new
  obtain ⟨room, hr⟩ : ∃ room, session.unmet expanding = room + 1 :=
    ⟨session.unmet expanding - 1, by omega⟩
  rw [showInside, hr, showReference, hg]
  simp only [inline, List.contains_eq_mem, new, Bool.not_true, decide_false, Bool.or_false,
    Bool.false_eq_true, if_false]
  rw [showReference_room (by omega)]

/-- Any other target is written as its name. -/
theorem showInside_of_not_inlined (h : session.get? target = none ∨ session.canInline target = false)
    (parens : Bool) : session.showInside expanding target parens = target := by
  rw [showInside]
  cases session.unmet expanding with
  | zero => rfl
  | succ room =>
    rw [showReference]
    cases hg : session.get? target with
    | none => rfl
    | some found => simp [h.resolve_left (by simp [hg])]

theorem encloses_showReference (room : Nat) : ∀ expanding target,
    Encloses (session.showReference room expanding target true)
      (session.showReference room expanding target false) := by
  induction room with
  | zero => exact fun _ _ => .inl rfl
  | succ room ih =>
    intro expanding target
    rw [showReference, showReference]
    cases session.get? target with
    | none => exact .inl rfl
    | some found =>
      dsimp only
      split
      · exact .inl rfl
      · exact Ty.encloses_printWith (ih _) found

/-- Parentheses go around a signature or make no difference. -/
theorem encloses_print (session : Session) (ty : Ty) :
    Encloses (session.print ty true) (session.print ty false) :=
  Ty.encloses_printWith (encloses_showReference _ []) ty

/-! ## The targets around a signature -/

/-- All types in the cache are in normal form. -/
def Normal (session : Session) : Prop :=
  ∀ id found, session.get? id = some found → found.Everywhere Ty.IsNormal

/-- A type that runs in no circle has one signature inside whatever targets lead to it.  None of
them comes again, so the same targets are written out in both. -/
theorem printWith_inside (normal : session.Normal) (met : List String) :
    ∀ (other : List String) (ty : Ty), ty.Everywhere Ty.IsNormal → ¬ session.Circles ty →
      session.Behind met ty → session.Behind other ty → ∀ parens,
        ty.printWith (session.showInside met) parens =
          ty.printWith (session.showInside other) parens := by
  induction hu : session.unmet met using Nat.strongRecOn generalizing met with
  | ind left ih =>
    subst hu
    intro other ty whole straight behind behind'
    refine Ty.printWith_congr_of_enters ty whole fun target enters parens => ?_
    cases hg : session.get? target with
    | none => rw [showInside_of_not_inlined (.inl hg), showInside_of_not_inlined (.inl hg)]
    | some found =>
      cases inline : session.canInline target with
      | false =>
        rw [showInside_of_not_inlined (.inr inline), showInside_of_not_inlined (.inr inline)]
      | true =>
        -- The target is none of those around in either signature, so both write it out.
        have goes : session.GoesInto ty target := ⟨enters, inline, by rw [hg]; rfl⟩
        have new := behind.not_mem straight goes
        rw [showInside_of_get? hg inline new,
          showInside_of_get? hg inline (behind'.not_mem straight goes)]
        refine ih _ (unmet_cons_lt goes.2.2 new) (target :: met) rfl (target :: other) found
          (normal target found hg) ?_ (behind.cons goes hg rfl) (behind'.cons goes hg rfl) parens
        exact straight_of_enters straight enters inline (by rw [hg]; rfl)

/-- A reference that may be inlined has the signature of its target. -/
theorem print_of_target? (normal : session.Normal) (ht : ty.target? = some target)
    (inline : session.canInline target = true) (hg : session.get? target = some found)
    (straight : ¬ session.Circles ty) (parens : Bool) :
    session.print ty parens = session.print found parens := by
  have goes := goesInto_of_target? ht inline hg
  have behind : session.Behind [] ty := nofun
  have onward : ¬ session.Circles found :=
    straight_of_enters straight goes.1 inline (by rw [hg]; rfl)
  have written : session.print ty parens = session.showInside [] target parens := by
    obtain ⟨notes, const, rfl⟩ := Ty.exists_of_target? ht
    rw [print_eq, Ty.printWith]
  rw [written, showInside_of_get? hg inline List.not_mem_nil, print_eq]
  exact printWith_inside normal [target] [] found (normal target found hg) onward
    (behind.cons goes hg rfl) nofun parens

end Session

end SchemaDoc
