import SchemaDoc.Proofs.Session.Inherited
import SchemaDoc.Proofs.Text.Grouping
import SchemaDoc.Session.Print

/-!
# Signatures are grouped

Something that is attached to a type in a signature, such as the brackets of an array, is attached
to all of it.  So a type that is written with parentheses asked for is a grouped text, and so is
each *operand* in it, `Ty.Operand`.

A type may be written where a bracket is open without parentheses, hence what is shown of texts is
that they are *guarded*, `Text.Guarded`: with parentheses they change nothing for a reader, and
without them nothing where a bracket is open.  Whether a reference is written out does not matter
to that.  A union with null is the one type that may be without parentheses where they are asked
for, namely if it has two members.  Then only one is written, which takes that the union is in
normal form.
-/

namespace SchemaDoc

namespace Text

/-- A text that is written with parentheses changes nothing, and without them nothing where a
bracket is open. -/
def Guarded (write : Bool → String) : Prop :=
  ∀ parens closers, parens = true ∨ closers ≠ [] → Neutral closers (write parens)

namespace Guarded

variable {write : Bool → String}

theorem tight (h : Guarded write) (closers : List Char) : Neutral closers (write true) :=
  h true closers (.inl rfl)

theorem within (h : Guarded write) (parens : Bool) (closer : Char) (closers : List Char) :
    Neutral (closer :: closers) (write parens) :=
  h parens _ (.inr (List.cons_ne_nil _ _))

theorem of_neutral {text : String} (h : ∀ closers, Neutral closers text) :
    Guarded fun _ => text :=
  fun _ closers _ => h closers

theorem parenthesize {text : String} (h : ∀ closer closers, Neutral (closer :: closers) text) :
    Guarded fun parens => Ty.parenthesize parens text := by
  intro parens closers given
  cases parens with
  | true => exact .parentheses (h ')' closers)
  | false =>
    obtain ⟨closer, rest, rfl⟩ := List.exists_cons_of_ne_nil (given.resolve_left Bool.false_ne_true)
    exact h closer rest

end Guarded

end Text

namespace Ty

open Text

variable {showReference : String → Bool → String}

/-! ## Unions -/

theorem neutral_orNever {closers : List Char} {text : String} (h : Neutral closers text) :
    Neutral closers (orNever text) := by
  rw [orNever]
  split
  · exact .of_plain (by decide)
  · exact h

/-- Alternatives may be listed where a bracket is open. -/
theorem neutral_alternatives {items : List Ty}
    (h : ∀ item ∈ items, Guarded fun parens => item.printWith showReference parens)
    (closer : Char) (closers : List Char) :
    Neutral (closer :: closers)
      (orNever (String.intercalate " | " (printPresent showReference items))) := by
  rw [printPresent_eq_map]
  refine neutral_orNever (.intercalate rfl (List.forall_mem_map.mpr fun item hi => ?_))
  exact (h item (List.mem_filter.mp hi).1).tight _

/-- The alternatives to null are in parentheses, or there is one at most. -/
theorem neutral_optional {form : UnionForm} {items : List Ty} (normal : NormalUnion form items true)
    (h : ∀ item ∈ items, Guarded fun parens => item.printWith showReference parens)
    (closers : List Char) :
    Neutral closers (parenthesize (2 < items.length)
      (orNever (String.intercalate " | " (printPresent showReference items)))) := by
  by_cases many : 2 < items.length
  · rw [decide_eq_true many]
    exact (Guarded.parenthesize (neutral_alternatives h)).tight closers
  · rw [decide_eq_false many]
    obtain ⟨null, hn, isNull⟩ := normal.nullable_iff.mp rfl
    have fewer : (items.filter fun item => !item.isNull).length < items.length :=
      List.length_filter_lt_length_iff_exists.mpr ⟨null, hn, by simp [isNull]⟩
    rw [printPresent_eq_map]
    refine neutral_orNever (.single ?_ (List.forall_mem_map.mpr fun item hi => ?_))
    · rw [List.length_map]
      omega
    · exact (h item (List.mem_filter.mp hi).1).tight closers

/-! ## Types -/

/-- A type is guarded if the references in it are. -/
theorem guarded_printWith {ty : Ty} (normal : ty.Everywhere IsNormal) :
    (∀ target ∈ ty.targets, Guarded (showReference target)) →
      Guarded fun parens => ty.printWith showReference parens := by
  induction normal with
  | @intro ty normal _ ih =>
    intro targets
    have each : ∀ child ∈ ty.children, Guarded fun parens => child.printWith showReference parens :=
      fun child hc => ih child hc fun target ht => targets target (targets_subset_of_child hc ht)
    have comma (closers : List Char) : Neutral closers ", " := .of_plain (by decide)
    obtain ⟨notes, const, shape⟩ := ty
    cases shape with
    | leaf kind =>
      cases const with
      | none =>
        have keyword : Plain kind.keyword := by cases kind <;> decide
        exact .of_neutral fun _ => .of_plain keyword
      | some value => exact .of_neutral value.neutral_compact
    | reference target =>
      simp only [printWith]
      exact targets target (mem_targets_of_target? rfl)
    | object members rest =>
      cases members with
      | nil =>
        cases rest with
        | none =>
          simp only [printWith]
          exact .of_neutral fun _ => rfl
        | some rest =>
          simp only [printWith]
          refine .of_neutral fun closers => ?_
          have label : Neutral ('\x7d' :: closers) "string: " := .of_plain (by decide)
          have inner := label.append ((each rest List.mem_cons_self).within false _ _)
          have front : "\x7bstring: " = "\x7b" ++ "string: " := by decide
          rw [front, String.append_assoc]
          exact inner.braces
      | cons member members =>
        simp only [printWith, printMembers_eq_map]
        refine .of_neutral fun closers => .braces (.intercalate (comma _) ?_)
        refine List.forall_mem_map.mpr fun entry he => ?_
        refine .append (.append (Json.neutral_quote _) (.of_plain (by decide))) ?_
        exact (each entry.2 (List.mem_append_left _ (List.mem_map_of_mem he))).within false _ _
    | array unique item =>
      simp only [printWith]
      refine .of_neutral fun closers => ?_
      exact ((each item List.mem_cons_self).tight closers).append rfl
    | tuple items tail =>
      have front : ∀ text ∈ printItems showReference false items, ∀ closers,
          Neutral (']' :: closers) text := by
        rw [printItems_eq_map]
        refine List.forall_mem_map.mpr fun item hi closers => ?_
        exact (each item (List.mem_append_left _ hi)).within false ']' closers
      cases tail with
      | none =>
        simp only [printWith, List.append_nil]
        refine .of_neutral fun closers => .brackets (.intercalate (comma _) fun text ht => ?_)
        exact front text ht closers
      | some tail =>
        simp only [printWith]
        refine .of_neutral fun closers => .brackets (.intercalate (comma _) ?_)
        refine List.forall_mem_append.mpr ⟨fun text ht => front text ht closers, ?_⟩
        have last := (each tail (List.mem_append_right _ List.mem_cons_self)).tight (']' :: closers)
        exact List.forall_mem_singleton.mpr (last.append (.of_plain (by decide)))
    | union form items nullable =>
      cases nullable with
      | true =>
        simp only [printWith, if_true]
        exact .of_neutral fun closers => (neutral_optional normal each closers).append rfl
      | false =>
        simp only [printWith, Bool.false_eq_true, if_false]
        exact .parenthesize (neutral_alternatives each)
    | intersection items =>
      simp only [printWith, printItems_eq_map]
      refine .parenthesize fun closer closers => neutral_orNever (.intercalate rfl ?_)
      exact List.forall_mem_map.mpr fun item hi => (each item hi).tight _

/-! ## Operands -/

/-- The text of a part of a type that something is attached to: the brackets of an array, the dots
of a tuple, a question mark, a bar or an ampersand. -/
inductive Operand (showReference : String → Bool → String) (ty : Ty) : String → Prop where
  | item {unique : Bool} {item : Ty} : ty.shape = .array unique item →
      Operand showReference ty (item.printWith showReference true)
  | tail {items : List Ty} {tail : Ty} : ty.shape = .tuple items (some tail) →
      Operand showReference ty (tail.printWith showReference true)
  | optional {form : UnionForm} {items : List Ty} {parens : Bool} {operand : String} :
      ty.shape = .union form items true → ty.printWith showReference parens = operand ++ "?" →
      Operand showReference ty operand
  | alternative {form : UnionForm} {items : List Ty} {nullable : Bool} {item : Ty} :
      ty.shape = .union form items nullable → item ∈ items → item.isNull = false →
      Operand showReference ty (item.printWith showReference true)
  | conjunct {items : List Ty} {item : Ty} : ty.shape = .intersection items → item ∈ items →
      Operand showReference ty (item.printWith showReference true)

/-- Each operand is grouped if the references in it are guarded. -/
theorem Operand.grouped {ty : Ty} {operand : String} (h : ty.Operand showReference operand)
    (normal : ty.IsNormal)
    (each : ∀ child ∈ ty.children, Guarded fun parens => child.printWith showReference parens) :
    Grouped operand := by
  obtain ⟨notes, const, shape⟩ := ty
  cases h with
  | item hs =>
    cases hs
    exact (each _ List.mem_cons_self).tight []
  | tail hs =>
    cases hs
    exact (each _ (List.mem_append_right _ List.mem_cons_self)).tight []
  | optional hs text =>
    cases hs
    simp only [printWith, if_true, String.append_left_inj] at text
    exact text ▸ neutral_optional normal each []
  | alternative hs hi _ =>
    cases hs
    exact (each _ hi).tight []
  | conjunct hs hi =>
    cases hs
    exact (each _ hi).tight []

/-- A type is written as a grouped text, with parentheses asked for, and so is each operand. -/
def WritesGrouped (showReference : String → Bool → String) (ty : Ty) : Prop :=
  Grouped (ty.printWith showReference true) ∧
    ∀ operand, ty.Operand showReference operand → Grouped operand

/-- Types are written as grouped texts at every depth if the references are guarded. -/
theorem everywhere_writesGrouped {ty : Ty} (normal : ty.Everywhere IsNormal) :
    (∀ target ∈ ty.targets, Guarded (showReference target)) →
      ty.Everywhere (WritesGrouped showReference) := by
  induction normal with
  | @intro ty normal inside ih =>
    intro targets
    have below (child : Ty) (hc : child ∈ ty.children) :
        ∀ target ∈ child.targets, Guarded (showReference target) :=
      fun target ht => targets target (targets_subset_of_child hc ht)
    refine .intro ⟨?_, fun operand h => ?_⟩ fun child hc => ih child hc (below child hc)
    · exact (guarded_printWith (.intro normal inside) targets).tight []
    · exact h.grouped normal fun child hc => guarded_printWith (inside child hc) (below child hc)

end Ty

namespace Session

open Text

/-- A plain name is guarded. -/
theorem guarded_of_plain {target : String} (h : Plain target) : Guarded fun _ => target :=
  .of_neutral fun _ => .of_plain h

section References

variable {session : Session}
variable (normal : ∀ id ty, session.get? id = some ty → ty.Everywhere Ty.IsNormal)
variable (plain : ∀ id ty, session.get? id = some ty → ∀ target ∈ ty.targets, Plain target)

include normal plain

/-- A reference is guarded, whether it is written out or not. -/
theorem guarded_showReference (room : Nat) : ∀ (expanding : List String) {target : String},
    Plain target → Guarded (session.showReference room expanding target) := by
  induction room with
  | zero => exact fun _ _ => guarded_of_plain
  | succ room ih =>
    intro expanding target name parens closers given
    rw [showReference]
    split
    · exact guarded_of_plain name parens closers given
    · rename_i ty hg
      split
      · exact guarded_of_plain name parens closers given
      · have inside (inner : String) (hi : inner ∈ ty.targets) :=
          ih (target :: expanding) (plain target ty hg inner hi)
        exact Ty.guarded_printWith (normal target ty hg) inside parens closers given

end References

/-- If no target of a reference has a quote, a bracket, a bar or an ampersand in it, every type in
the cache of a session is a grouped text at every depth, with references written out and with their
names, and so are its operands. -/
theorem signatures_grouped {registry : Registry} {keyword : String} {uris : List String}
    {session : Session} (run : (fresh registry keyword).loadAll uris = session)
    (plain : ∀ id ty, session.get? id = some ty → ∀ target ∈ ty.targets, Plain target)
    {id : String} {ty : Ty} (h : session.get? id = some ty) :
    ty.Everywhere fun part =>
      (Grouped (session.print part true) ∧
        ∀ operand, part.Operand (session.showReference session.cache.length []) operand →
          Grouped operand) ∧
      Grouped (part.printBare true) ∧
        ∀ operand, part.Operand (fun target _ => target) operand → Grouped operand := by
  have normal : ∀ id ty, session.get? id = some ty → ty.Everywhere Ty.IsNormal := by
    subst run
    exact fun _ _ hg => forall_cached Ty.inherited_normal registry keyword uris hg
  have whole : ty.Everywhere (Ty.WritesGrouped (session.showReference session.cache.length [])) :=
    Ty.everywhere_writesGrouped (normal id ty h) fun target ht =>
      guarded_showReference normal plain _ [] (plain id ty h target ht)
  have bare : ty.Everywhere (Ty.WritesGrouped fun target _ => target) :=
    Ty.everywhere_writesGrouped (normal id ty h) fun target ht =>
      guarded_of_plain (plain id ty h target ht)
  exact whole.and bare

/-- The targets of a type in the cache are among those of all types in it. -/
theorem mem_targets_of_get? {session : Session} {id target : String} {ty : Ty}
    (h : session.get? id = some ty) (ht : target ∈ ty.targets) :
    target ∈ session.cache.flatMap fun entry => entry.2.targets :=
  List.mem_flatMap_of_mem (Table.mem_of_get? h) ht

/-- An array whose items are null or one of two constants, one of them through a reference. -/
def optionalSchema : Json :=
  .object [("type", .string "array"), ("items", .object [("anyOf", .array [
      .object [("type", .string "null")],
      .object [("const", .string "a|(")],
      .object [("$ref", .string "#/$defs/T")]])]),
    ("$defs", .object [("T", .object [("const", .array [.string "]", .number (.integer 1)])])])]

/-- A session that has loaded it. -/
def optionalSession : Session :=
  (fresh (Registry.register {} "Root" optionalSchema).crawl "mark").loadAll ["Root"]

/-- Marks in literals do not count, and null leaves two alternatives in parentheses. -/
theorem optional_signature_grouped :
    (∀ id ty, optionalSession.get? id = some ty → ∀ target ∈ ty.targets, Plain target) ∧
      ∃ ty, optionalSession.get? "Root" = some ty ∧
        optionalSession.print ty true = "(\"a|(\" | [\"]\",1])?[]" ∧
        ty.printBare true = "(\"a|(\" | Root#/$defs/T)?[]" ∧
        Grouped (optionalSession.print ty true) ∧ Grouped (ty.printBare true) := by
  have names : optionalSession.cache.flatMap (fun entry => entry.2.targets) =
      ["Root#/$defs/T"] := by decide +kernel
  have plain : ∀ id ty, optionalSession.get? id = some ty →
      ∀ target ∈ ty.targets, Plain target := by
    intro id ty h target ht
    have mem := mem_targets_of_get? h ht
    rw [names, List.mem_singleton] at mem
    rw [mem]
    decide
  have computed : (optionalSession.get? "Root").map
        (fun ty => (optionalSession.print ty true, ty.printBare true)) =
      some ("(\"a|(\" | [\"]\",1])?[]", "(\"a|(\" | Root#/$defs/T)?[]") := by
    decide +kernel
  obtain ⟨ty, hg, texts⟩ := Option.map_eq_some_iff.mp computed
  obtain ⟨whole, bare⟩ := Prod.mk.inj texts
  have run : (fresh (Registry.register {} "Root" optionalSchema).crawl "mark").loadAll ["Root"] =
      optionalSession := rfl
  obtain ⟨⟨grouped, -⟩, grouped', -⟩ := (signatures_grouped run plain hg).here
  exact ⟨plain, ty, hg, whole, bare, grouped, grouped'⟩

end Session

end SchemaDoc
