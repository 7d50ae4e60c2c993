import Mathlib.Data.List.Forall2
import Mathlib.Data.List.Induction
import SchemaDoc.CommandLine.Run
import SchemaDoc.Proofs.Files.Still

/-!
# Documents that are read

A run reads the root schema and every file that is named or matched, or it fails.  In a still file
system `Sources.Holds` says which documents these are and under which names, and exactly these are
read, `answer_documents_iff`.

Files go by the last name of their path.  So two files in different directories may have one name,
and a file may have the name of the root schema.  Neither is an error: the registry holds the last
document under each name, `get?_registryOf`.  So it holds all of them exactly if no two that differ
have one name, `session_registers`.
-/

namespace SchemaDoc

variable {σ ε α β : Type}

/-! ## Answers that succeed -/

theorem bind_eq_ok_iff {x : Except ε α} {f : α → Except ε β} {b : β} :
    (x >>= f) = .ok b ↔ ∃ a, x = .ok a ∧ f a = .ok b := by
  cases x with
  | error e => exact ⟨nofun, fun ⟨_, h, _⟩ => nomatch h⟩
  | ok a =>
    refine ⟨fun h => ⟨a, rfl, h⟩, ?_⟩
    rintro ⟨_, same, h⟩
    obtain rfl := Except.ok.inj same
    exact h

theorem toOption_eq_some_iff {x : Except ε α} {a : α} : x.toOption = some a ↔ x = .ok a := by
  cases x with
  | error e => exact ⟨nofun, nofun⟩
  | ok b => rw [Except.toOption, Option.some.injEq, Except.ok.injEq]

theorem mapError_eq_ok_iff {x : Except ε α} {g : ε → β} {a : α} :
    x.mapError g = .ok a ↔ x = .ok a := by
  cases x with
  | error e => exact ⟨nofun, nofun⟩
  | ok b => rw [Except.mapError, Except.ok.injEq, Except.ok.injEq]

theorem mapM_eq_ok_iff {f : α → Except ε β} {items : List α} {results : List β} :
    items.mapM f = .ok results ↔ List.Forall₂ (fun a b => f a = .ok b) items results := by
  induction items generalizing results with
  | nil =>
    rw [List.forall₂_nil_left_iff]
    exact ⟨fun h => (Except.ok.inj h).symm, fun h => h ▸ rfl⟩
  | cons item rest ih =>
    rw [List.mapM_cons, bind_eq_ok_iff, List.forall₂_cons_left_iff]
    simp only [bind_eq_ok_iff, ih]
    constructor
    · rintro ⟨first, hf, others, ho, same⟩
      exact ⟨first, others, hf, ho, (Except.ok.inj same).symm⟩
    · rintro ⟨first, others, hf, ho, rfl⟩
      exact ⟨first, hf, others, ho, rfl⟩

/-! ## Files -/

namespace FileSystem

variable (files : FileSystem (StateM σ)) (s : σ)

/-- The document in a file. -/
def document? (path : String) : Option Json :=
  (((files.read path).run s).1.bind String.fromUTF8?).bind Json.parse?

/-- The paths that a path or a pattern of paths leads to, if the pattern is well formed and all
directories that are looked into can be read. -/
def leads? (pattern : String) : Option (List String) :=
  if Glob.isPattern pattern then
    (Glob.parse? pattern).bind fun glob => (answer (glob.paths files) s).toOption
  else some [pattern]

/-- The document in a file under the name of the file. -/
def named? (path : String) : Option (String × Json) := do
  pure (← Path.fileName? path, ← files.document? s path)

variable {files s}

theorem quiet_readJson (still : files.Still) (path : String) : Quiet (files.readJson path).run := by
  refine (still.read path).liftExcept.bindExcept fun contents => ?_
  split
  · exact .pure _
  · split <;> exact .pure _

theorem answer_readJson_iff (still : files.Still) {path : String} {document : Json} :
    answer (files.readJson path) s = .ok document ↔ files.document? s path = some document := by
  rw [FileSystem.readJson, answer_bind (still.read path).liftExcept, answer_lift, document?,
    bind_eq_ok_iff]
  simp only [Except.ok.injEq, exists_eq_left']
  cases ((files.read path).run s).1.bind String.fromUTF8? with
  | none => simp
  | some text => cases parsed : Json.parse? text <;> simp [parsed]

end FileSystem

namespace CommandLine

/-! ## The registry -/

namespace Sources

/-- Under each name the registry holds the last document. -/
theorem get?_registryOf (documents : List (String × Json)) (name : String) :
    (registryOf documents).resources.get? name =
      ((documents.filter fun named => named.1 = name).getLast?).map fun named =>
        .ofContents named.2 := by
  induction documents using List.reverseRecOn with
  | nil => rfl
  | append_singleton before last ih =>
    have registered : (registryOf (before ++ [last])).resources =
        (registryOf before).resources.put last.1 (.ofContents last.2) := by
      rw [registryOf, List.foldl_append]
      rfl
    rw [registered, Table.get?_put, ih, List.filter_append]
    split
    · rename_i same
      simp [same]
    · rename_i other
      simp [other]

/-- It holds all documents exactly if no two that differ have one name. -/
theorem forall_get?_registryOf_iff (documents : List (String × Json)) :
    (∀ named ∈ documents,
      (registryOf documents).resources.get? named.1 = some (.ofContents named.2)) ↔
      ∀ named ∈ documents, ∀ other ∈ documents, named.1 = other.1 → named.2 = other.2 := by
  constructor
  · intro held named hn other ho same
    have both := held named hn
    rw [same, held other ho] at both
    exact (congrArg Resource.contents (Option.some.inj both)).symm
  · intro alike named hn
    rw [get?_registryOf]
    cases last : (documents.filter fun other => other.1 = named.1).getLast? with
    | none =>
      have mem : named ∈ documents.filter fun other => other.1 = named.1 :=
        List.mem_filter.mpr ⟨hn, decide_eq_true rfl⟩
      rw [List.getLast?_eq_none_iff.mp last] at mem
      cases mem
    | some other =>
      obtain ⟨ho, same⟩ := List.mem_filter.mp (List.mem_of_getLast? last)
      rw [Option.map_some, alike named hn other ho (of_decide_eq_true same).symm]

end Sources

/-! ## Sources -/

/-- The documents that sources hold: the root schema, and under their names all files further down,
which are those at the paths that a path or a pattern of paths leads to.  Each of these leads to some
path. -/
structure Sources.Holds (files : FileSystem (StateM σ)) (s : σ) (sources : Sources) (root : Json)
    (further : List (String × Json)) : Prop where
  root : files.document? s sources.schema = some root
  further : ∃ paths, List.Forall₂ (fun pattern matched => files.leads? s pattern = some matched ∧
      matched ≠ []) sources.resources paths ∧
    List.Forall₂ (fun path named => files.named? s path = some named) paths.flatten further

section Reading

variable {files : FileSystem (StateM σ)} {s : σ} (still : files.Still)

include still

theorem quiet_expand (pattern : String) : Quiet (expand files pattern).run := by
  unfold expand
  split
  · exact .pure _
  · split
    · exact .pure _
    · refine ((Glob.quiet_paths still _).adapt _).bindExcept fun paths => ?_
      split <;> exact .pure _

theorem answer_expand_iff {pattern : String} {paths : List String} :
    answer (expand files pattern) s = .ok paths ↔
      files.leads? s pattern = some paths ∧ paths ≠ [] := by
  unfold expand FileSystem.leads?
  cases Glob.isPattern pattern with
  | false =>
    have nonempty : [pattern] = paths → paths ≠ [] := fun same => same ▸ List.cons_ne_nil _ _
    simpa using nonempty
  | true =>
    cases Glob.parse? pattern with
    | none => simp
    | some glob =>
      change answer ((glob.paths files).adapt _ >>= fun found =>
          if found.isEmpty then throw (Failure.noMatch pattern) else pure found) s = _ ↔
        (answer (glob.paths files) s).toOption = some paths ∧ _
      rw [answer_bind ((Glob.quiet_paths still glob).adapt _), bind_eq_ok_iff, answer_adapt,
        toOption_eq_some_iff]
      simp only [mapError_eq_ok_iff]
      constructor
      · rintro ⟨found, matched, h⟩
        cases found with
        | nil => cases h
        | cons first others =>
          obtain rfl := Except.ok.inj h
          exact ⟨matched, List.cons_ne_nil _ _⟩
      · rintro ⟨matched, nonempty⟩
        refine ⟨paths, matched, ?_⟩
        cases paths with
        | nil => exact absurd rfl nonempty
        | cons first others => rfl

theorem quiet_documentAt (path : String) : Quiet (documentAt files path).run := by
  unfold documentAt
  split
  · exact .pure _
  · exact ((FileSystem.quiet_readJson still path).adapt _).bindExcept fun _ => .pure _

theorem answer_documentAt_iff {path : String} {named : String × Json} :
    answer (documentAt files path) s = .ok named ↔ files.named? s path = some named := by
  unfold documentAt FileSystem.named?
  cases Path.fileName? path with
  | none => exact ⟨nofun, nofun⟩
  | some name =>
    dsimp only
    rw [answer_bind ((FileSystem.quiet_readJson still path).adapt _), bind_eq_ok_iff]
    simp only [answer_adapt, mapError_eq_ok_iff, FileSystem.answer_readJson_iff still]
    cases files.document? s path <;> simp

namespace Sources

theorem quiet_documents (sources : Sources) : Quiet (sources.documents files).run :=
  ((FileSystem.quiet_readJson still _).adapt _).bindExcept fun _ =>
    (Quiet.mapMExcept (quiet_expand still) _).bindExcept fun _ =>
      (Quiet.mapMExcept (quiet_documentAt still) _).bindExcept fun _ => .pure _

/-- The sources are read exactly if they hold documents, which are then read in their order. -/
theorem answer_documents_iff {sources : Sources} {documents : List (String × Json)} :
    answer (sources.documents files) s = .ok documents ↔
      ∃ root further, sources.Holds files s root further ∧
        documents = (sources.rootName, root) :: further := by
  unfold Sources.documents
  rw [answer_bind ((FileSystem.quiet_readJson still _).adapt _), bind_eq_ok_iff]
  refine exists_congr fun root => ?_
  rw [answer_adapt, mapError_eq_ok_iff, FileSystem.answer_readJson_iff still,
    answer_bind (Quiet.mapMExcept (quiet_expand still) _), bind_eq_ok_iff,
    answer_mapM (quiet_expand still)]
  simp only [mapM_eq_ok_iff, answer_expand_iff still,
    answer_bind (Quiet.mapMExcept (quiet_documentAt still) _), bind_eq_ok_iff,
    answer_mapM (quiet_documentAt still), answer_documentAt_iff still, answer_pure]
  constructor
  · rintro ⟨read, paths, matched, further, named, same⟩
    exact ⟨further, ⟨read, paths, matched, named⟩, (Except.ok.inj same).symm⟩
  · rintro ⟨further, ⟨read, paths, matched, named⟩, rfl⟩
    exact ⟨read, paths, matched, further, named, rfl⟩

/-- A run changes no files while it reads its sources.  If these hold documents, the registry is
made of them: the root schema under the name it is given, and then each file that is named or matched
under the last name of its path.  Under each name it holds the last document, so that it holds every
document under its name exactly if no two that differ have one name; either way the run goes on.  If
they hold no documents, because a file cannot be read or has no name, or because a pattern is not
well formed, matches nothing or leads into a directory that cannot be read, the run fails. -/
theorem session_registers (sources : Sources) (s : σ) :
    (∀ root further, sources.Holds files s root further →
      let documents := (sources.rootName, root) :: further
      (sources.session files).run.run s =
        (.ok { registry := (registryOf documents).crawl, keyword := sources.keyword }, s) ∧
      (∀ name, (registryOf documents).resources.get? name =
        ((documents.filter fun named => named.1 = name).getLast?).map fun named =>
          .ofContents named.2) ∧
      ((∀ named ∈ documents,
          (registryOf documents).resources.get? named.1 = some (.ofContents named.2)) ↔
        ∀ named ∈ documents, ∀ other ∈ documents, named.1 = other.1 → named.2 = other.2)) ∧
    ((∀ root further, ¬sources.Holds files s root further) →
      ∃ failure, (sources.session files).run.run s = (.error failure, s)) := by
  have quiet : Quiet (sources.session files).run :=
    (quiet_documents still sources).bindExcept fun _ => .pure _
  have session : answer (sources.session files) s =
      (answer (sources.documents files) s).map fun documents =>
        { registry := (registryOf documents).crawl, keyword := sources.keyword } := by
    rw [Sources.session, answer_bind (quiet_documents still sources)]
    cases answer (sources.documents files) s <;> rfl
  refine ⟨fun root further holds => ⟨?_, get?_registryOf _, forall_get?_registryOf_iff _⟩,
    fun none => ?_⟩
  · have read := (answer_documents_iff still).mpr ⟨root, further, holds, rfl⟩
    rw [run_eq_answer quiet, session, read]
    rfl
  · cases read : answer (sources.documents files) s with
    | error failure =>
      refine ⟨failure, ?_⟩
      rw [run_eq_answer quiet, session, read]
      rfl
    | ok documents =>
      obtain ⟨root, further, holds, -⟩ := (answer_documents_iff still).mp read
      exact absurd holds (none root further)

end Sources

end Reading

namespace Sources

/-- Sources with a file that has the name of the root schema. -/
def homonyms : Sources := { schema := "a.json", rootName := "b.json", resources := ["r/b.json"] }

/-- They are read, and the root schema is not held. -/
theorem homonyms_session_registers :
    let documents : List (String × Json) :=
      [("b.json", .number (.integer 1)), ("b.json", .number (.integer 2))]
    (homonyms.session (FileTree.system 2)).run.run FileTree.sample =
      (.ok { registry := (registryOf documents).crawl, keyword := homonyms.keyword },
        FileTree.sample) ∧
    ¬∀ named ∈ documents,
      (registryOf documents).resources.get? named.1 = some (.ofContents named.2) := by
  intro documents
  have still := FileTree.still_system 2
  have holds : homonyms.Holds (FileTree.system 2) FileTree.sample (.number (.integer 1))
      [("b.json", .number (.integer 2))] := by
    have leads : (FileTree.system 2).leads? FileTree.sample "r/b.json" = some ["r/b.json"] := by
      decide +kernel
    exact ⟨by rfl, [["r/b.json"]], .cons ⟨leads, List.cons_ne_nil _ _⟩ .nil, .cons (by rfl) .nil⟩
  obtain ⟨run, -, exactly⟩ := (session_registers still homonyms FileTree.sample).1 _ _ holds
  refine ⟨run, fun held => ?_⟩
  have second := List.mem_cons_of_mem (homonyms.rootName, Json.number (.integer 1))
    (List.mem_singleton_self ("b.json", Json.number (.integer 2)))
  cases exactly.mp held _ List.mem_cons_self _ second rfl

end Sources

end CommandLine

end SchemaDoc
