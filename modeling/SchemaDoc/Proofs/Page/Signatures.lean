import Mathlib.Data.List.Infix
import SchemaDoc.Proofs.Page.Links
import SchemaDoc.Proofs.Page.Spans
import SchemaDoc.Proofs.Signature.Quoted

/-!
# What a heading shows of a signature

The signature of a heading is what its entry tells of a type and a default, `Entry.told`, without
the path to definitions.  Links and code only put marks around it, so what is shown differs from
that in blanks only, and literals are shown as they are, `Token.Quoted.shows_respaced`.

But the path is left out of literals too, in which it names no definition.  It has no quote in it,
so it is left out in each literal and in each text between them by itself,
`Token.Quoted.dropDefs_written`, and what it takes from a literal is missing from the characters
that are shown, `Token.Quoted.length_solid_map_dropDefs`.
-/

namespace SchemaDoc.Page

open Text Token

/-! ## Stretches that are left out -/

section Without

variable {stretch cs : List Char}

theorem withoutAfter_sublist (taken : Nat) (cs : List Char) :
    (withoutAfter stretch taken cs).Sublist (cs.drop taken) := by
  induction cs generalizing taken with
  | nil => cases taken <;> exact List.nil_sublist _
  | cons c rest ih =>
    cases taken with
    | succ taken => exact ih taken
    | zero =>
      rw [withoutAfter]
      split
      · exact ((ih _).trans (List.drop_sublist _ rest)).cons c
      · exact (ih 0).cons_cons c

theorem withoutAfter_eq_self (h : ¬stretch <:+: cs) : withoutAfter stretch 0 cs = cs := by
  induction cs with
  | nil => rfl
  | cons c rest ih =>
    have first : ¬stretch.isPrefixOf (c :: rest) = true := fun found =>
      h (List.isPrefixOf_iff_prefix.mp found).isInfix
    have others : ¬stretch <:+: rest := fun found =>
      h (found.trans (List.suffix_cons c rest).isInfix)
    rw [withoutAfter, if_neg first, ih others]

/-- A stretch without a character does not go on over it. -/
theorem prefix_append_cons_iff {left right : List Char} {c : Char} (hc : c ∉ stretch) :
    stretch <+: left ++ c :: right ↔ stretch <+: left := by
  refine ⟨?_, fun h => h.trans (List.prefix_append left _)⟩
  rintro ⟨more, cut⟩
  rcases List.append_eq_append_iff.mp cut with ⟨after, hl, -⟩ | ⟨after, hs, hr⟩
  · exact ⟨after, hl.symm⟩
  · cases after with
    | nil => exact ⟨[], by simpa using hs⟩
    | cons d others =>
      obtain ⟨rfl, -⟩ := List.cons.inj hr
      exact absurd (by simp [hs]) hc

theorem withoutAfter_append_cons {c : Char} (hc : c ∉ stretch) (nonempty : stretch ≠ [])
    (left right : List Char) : withoutAfter stretch 0 (left ++ c :: right) =
      withoutAfter stretch 0 left ++ c :: withoutAfter stretch 0 right := by
  have run (taken : Nat) (h : taken ≤ left.length) :
      withoutAfter stretch taken (left ++ c :: right) =
        withoutAfter stretch taken left ++ c :: withoutAfter stretch 0 right := by
    induction left generalizing taken with
    | nil =>
      have other : ¬stretch.isPrefixOf (c :: right) = true := by
        rw [List.isPrefixOf_iff_prefix]
        exact fun found => nonempty (List.prefix_nil.mp ((prefix_append_cons_iff hc).mp found))
      obtain rfl := Nat.le_zero.mp h
      change withoutAfter stretch 0 (c :: right) = c :: withoutAfter stretch 0 right
      rw [withoutAfter, if_neg other]
    | cons d rest ih =>
      cases taken with
      | succ taken => exact ih taken (Nat.le_of_succ_le_succ h)
      | zero =>
        have same : stretch.isPrefixOf (d :: (rest ++ c :: right)) =
            stretch.isPrefixOf (d :: rest) := by
          rw [Bool.eq_iff_iff, List.isPrefixOf_iff_prefix, List.isPrefixOf_iff_prefix,
            ← List.cons_append]
          exact prefix_append_cons_iff hc
        rw [List.cons_append, withoutAfter, withoutAfter, same]
        split
        · rename_i found
          have length := (List.isPrefixOf_iff_prefix.mp found).length_le
          exact ih _ (by simpa using length)
        · rw [ih 0 (Nat.zero_le _), List.cons_append]
  exact run 0 (Nat.zero_le _)

/-- What is left out is missing. -/
theorem length_solid_withoutAfter_lt (hs : solid stretch ≠ []) (h : stretch <:+: cs) :
    (solid (withoutAfter stretch 0 cs)).length < (solid cs).length := by
  induction cs with
  | nil =>
    rw [List.infix_nil.mp h] at hs
    exact absurd rfl hs
  | cons c rest ih =>
    rw [withoutAfter]
    split
    · rename_i found
      obtain ⟨more, cut⟩ := List.isPrefixOf_iff_prefix.mp found
      have left : rest.drop (stretch.length - 1) = more := by
        cases stretch with
        | nil => exact absurd rfl hs
        | cons d others =>
          obtain ⟨-, rfl⟩ := List.cons.inj cut
          simp
      have kept : (withoutAfter stretch (stretch.length - 1) rest).Sublist more :=
        left ▸ withoutAfter_sublist _ rest
      have dropped := List.length_pos_iff.mpr hs
      rw [← cut, solid_append, List.length_append]
      exact Nat.lt_of_le_of_lt (kept.filter _).length_le (Nat.lt_add_of_pos_left dropped)
    · rename_i other
      have inner : stretch <:+: rest := by
        rcases List.infix_cons_iff.mp h with found | inner
        · exact absurd (List.isPrefixOf_iff_prefix.mpr found) other
        · exact inner
      have front (cs : List Char) : solid (c :: cs) = solid [c] ++ solid cs := solid_append [c] cs
      rw [front rest, front (withoutAfter stretch 0 rest), List.length_append, List.length_append]
      exact Nat.add_lt_add_left (ih inner) _

end Without

/-! ## The path to definitions -/

/-- The path to definitions. -/
def defsPath : List Char := "/$defs/".toList

/-- Characters without the path to definitions. -/
def dropDefs (cs : List Char) : List Char := withoutAfter defsPath 0 cs

theorem toList_withoutDefs (text : String) : (withoutDefs text).toList = dropDefs text.toList :=
  String.toList_ofList

theorem dropDefs_eq_self {cs : List Char} (h : ¬defsPath <:+: cs) : dropDefs cs = cs :=
  withoutAfter_eq_self h

theorem dropDefs_append_quote (left right : List Char) :
    dropDefs (left ++ '"' :: right) = dropDefs left ++ '"' :: dropDefs right :=
  withoutAfter_append_cons (by decide) (by decide) left right

theorem Unquoted.dropDefs {cs : List Char} (h : Unquoted cs) : Unquoted (dropDefs cs) :=
  fun c hc => h c ((withoutAfter_sublist 0 cs).subset hc)

end SchemaDoc.Page

namespace SchemaDoc.Token.Quoted

open Text Page

variable {quoted : Quoted}

theorem Proper.map_dropDefs (h : quoted.Proper) : (quoted.map dropDefs id).Proper := by
  induction quoted with
  | plain text => exact Unquoted.dropDefs h
  | literal before inner after ih => exact ⟨Unquoted.dropDefs h.1, h.2.1, ih h.2.2⟩

/-- The path is left out in each text, since it has no quote in it. -/
theorem dropDefs_written (quoted : Quoted) :
    dropDefs quoted.written = (quoted.map dropDefs dropDefs).written := by
  induction quoted with
  | plain text => rfl
  | literal before inner after ih =>
    rw [written, dropDefs_append_quote, dropDefs_append_quote, ih]
    rfl

theorem map_dropDefs_eq (h : ∀ inner ∈ quoted.insides, ¬defsPath <:+: inner) :
    quoted.map dropDefs dropDefs = quoted.map dropDefs id := by
  induction quoted with
  | plain text => rfl
  | literal before inner after ih =>
    obtain ⟨first, others⟩ := List.forall_mem_cons.mp h
    rw [map, map, ih others, dropDefs_eq_self first]
    rfl

theorem length_solid_literal (before inner : List Char) (after : Quoted) :
    (solid (literal before inner after).written).length =
      (solid before).length + (solid inner).length + (solid after.written).length + 2 := by
  have quote (rest : List Char) : solid ('"' :: rest) = '"' :: solid rest := rfl
  rw [written, solid_append, quote, solid_append, quote]
  simp only [List.length_append, List.length_cons]
  omega

/-- Each literal with the path in it loses some characters. -/
theorem length_solid_map_dropDefs (quoted : Quoted) :
    (solid (quoted.map dropDefs dropDefs).written).length +
        quoted.insides.countP (fun inner => defsPath <:+: inner) ≤
      (solid (quoted.map dropDefs id).written).length := by
  induction quoted with
  | plain text => exact Nat.le_refl _
  | literal before inner after ih =>
    have lost : (solid (dropDefs inner)).length + (if defsPath <:+: inner then 1 else 0) ≤
        (solid inner).length := by
      split
      · rename_i found
        exact length_solid_withoutAfter_lt (by decide) found
      · rename_i other
        rw [dropDefs_eq_self other]
        exact Nat.le_refl _
    rw [map, map, length_solid_literal, length_solid_literal, insides, List.countP_cons]
    simp only [decide_eq_true_eq, id]
    omega

end SchemaDoc.Token.Quoted

namespace SchemaDoc

open Text Token

/-- The type and the default of an entry, as far as it shows them. -/
def Entry.told (entry : Entry) : String :=
  " = ".intercalate (entry.signature.toList ++ entry.default.toList)

namespace Page

theorem signature_headingOf (around : Page) (entry : Entry) (owner name : String)
    (anchor : Option String) :
    (around.headingOf entry owner name anchor).signature = withoutDefs entry.told := by
  unfold headingOf Entry.told
  cases entry.signature <;> cases entry.default <;> rfl

/-- The heading of an entry shows its type and its default.  On any page they are written as blanks,
code and links, and without the marks of these nothing is shown but the characters of both texts
without the path to definitions, in their order, and blanks.  If there are quotes around literals
only, then these are shown as they are, and the path is left out between them only, exactly if none
of them has the path in it. -/
theorem signature_shown (around page : Page) (entry : Entry) :
    ∃ heading, (around.enter entry).items = around.items ++ [.heading heading] ∧
      (page.renderSignature heading.signature heading.scope).toList =
        (page.signatureSpans heading).flatMap Span.written ∧
      (∀ span ∈ page.signatureSpans heading, span.Sound) ∧
      solid ((page.signatureSpans heading).flatMap Span.shown) =
        solid (dropDefs entry.told.toList) ∧
      ∀ quoted : Quoted, quoted.Proper → quoted.written = entry.told.toList →
        ((quoted.map dropDefs id).Shows ((page.signatureSpans heading).flatMap Span.shown) ↔
          ∀ inner ∈ quoted.insides, ¬defsPath <:+: inner) := by
  refine ⟨_, around.items_enter entry, page.toList_renderSignature _,
    page.sound_signatureSpans _, ?_, fun quoted proper told => ?_⟩
  · rw [shown_signatureSpans, solid_normalize, signature_headingOf, toList_withoutDefs]
  · rw [shown_signatureSpans, signature_headingOf]
    have left : (withoutDefs entry.told).toList = (quoted.map dropDefs dropDefs).written := by
      rw [toList_withoutDefs, ← told, Quoted.dropDefs_written]
    constructor
    · intro shows
      have length := congrArg List.length shows.solid_eq
      rw [solid_normalize, left] at length
      have lost := quoted.length_solid_map_dropDefs
      have none : quoted.insides.countP (fun inner => defsPath <:+: inner) = 0 := by omega
      simpa using List.countP_eq_zero.mp none
    · intro kept
      have shows := Quoted.shows_respaced proper.map_dropDefs
      rw [← Quoted.map_dropDefs_eq kept, ← left] at shows
      rw [toList_normalize, ← Quoted.map_dropDefs_eq kept]
      exact shows.trim

/-- An entry with the path in its default. -/
def pathEntry : Entry :=
  { kind := .setting, name := "p", signature := some "string", default := some "\"/$defs/a\"" }

/-- The same by its literal. -/
def pathTold : Quoted := .literal "string = ".toList "/$defs/a".toList (.plain [])

/-- The default is not shown as it is. -/
theorem path_signature_shown : ∃ heading,
    (({} : Page).enter pathEntry).items = [.heading heading] ∧
      ¬(pathTold.map dropDefs id).Shows
        ((({} : Page).signatureSpans heading).flatMap Span.shown) := by
  obtain ⟨heading, items, -, -, -, exactly⟩ := signature_shown {} {} pathEntry
  have before : Unquoted "string = ".toList := by decide
  have proper : pathTold.Proper :=
    ⟨before, inside_quote "/$defs/a".toList, List.forall_mem_nil _⟩
  refine ⟨heading, items, fun shows => ?_⟩
  have kept := (exactly pathTold proper (by decide)).mp shows
  exact kept _ List.mem_cons_self (by decide)

end Page

end SchemaDoc
