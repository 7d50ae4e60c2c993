import SchemaDoc.Files.Glob

/-!
# Looking at files

A computation is *quiet* if it leaves its state as it is, `Quiet`.  A file system is *still* if
looking at files is quiet in it, `FileSystem.Still`, as it is in a tree of files,
`FileTree.still_system`.  Then finding the paths that match a pattern is quiet too,
`Glob.quiet_paths`.

A quiet computation may fail.  What it answers in a state, `answer`, is a value like any other:
computations one after the other answer what their answers give, `answer_bind`.
-/

namespace SchemaDoc

variable {σ ε α β : Type}

/-! ## Quiet computations -/

/-- A computation that leaves its state as it is. -/
def Quiet (x : StateM σ α) : Prop := ∀ s, (x.run s).2 = s

namespace Quiet

theorem pure (a : α) : Quiet (σ := σ) (pure a) := fun _ => rfl

theorem bind {x : StateM σ α} {f : α → StateM σ β} (hx : Quiet x) (hf : ∀ a, Quiet (f a)) :
    Quiet (x >>= f) :=
  fun s => (hf _ _).trans (hx s)

end Quiet

/-! ## Computations that may fail -/

/-- What a computation answers in a state. -/
def answer (x : ExceptT ε (StateM σ) α) (s : σ) : Except ε α := (x.run.run s).1

section Answers

variable {x : ExceptT ε (StateM σ) α} {f : α → ExceptT ε (StateM σ) β} {s : σ}

theorem run_eq_answer (h : Quiet x.run) (s : σ) : x.run.run s = (answer x s, s) :=
  Prod.ext rfl (h s)

theorem Quiet.liftExcept {y : StateM σ α} (h : Quiet y) :
    Quiet (liftM y : ExceptT ε (StateM σ) α).run :=
  h.bind fun a => .pure (Except.ok a)

@[simp] theorem answer_pure (a : α) (s : σ) : answer (ε := ε) (pure a) s = .ok a := rfl

@[simp] theorem answer_throw (e : ε) (s : σ) :
    answer (throw e : ExceptT ε (StateM σ) α) s = .error e := rfl

theorem answer_lift (y : StateM σ α) (s : σ) :
    answer (liftM y : ExceptT ε (StateM σ) α) s = .ok (y.run s).1 := rfl

theorem Quiet.adapt {δ : Type} (hx : Quiet x.run) (g : ε → δ) : Quiet (x.adapt g).run :=
  hx.bind fun result => .pure (result.mapError g)

theorem answer_adapt {δ : Type} (x : ExceptT ε (StateM σ) α) (g : ε → δ) (s : σ) :
    answer (x.adapt g) s = (answer x s).mapError g := rfl

theorem Quiet.bindExcept (hx : Quiet x.run) (hf : ∀ a, Quiet (f a).run) : Quiet (x >>= f).run := by
  rw [ExceptT.run_bind]
  refine hx.bind fun result => ?_
  cases result with
  | ok a => exact hf a
  | error e => exact .pure _

theorem answer_bind (hx : Quiet x.run) (s : σ) :
    answer (x >>= f) s = answer x s >>= fun a => answer (f a) s := by
  rw [answer, ExceptT.run_bind, StateT.run_bind, run_eq_answer hx]
  cases answer x s <;> rfl

theorem Quiet.mapMExcept (hf : ∀ a, Quiet (f a).run) (items : List α) :
    Quiet (items.mapM f).run := by
  induction items with
  | nil => exact .pure _
  | cons item rest ih =>
    rw [List.mapM_cons]
    exact (hf item).bindExcept fun _ => ih.bindExcept fun _ => .pure _

theorem answer_mapM (hf : ∀ a, Quiet (f a).run) (items : List α) (s : σ) :
    answer (items.mapM f) s = items.mapM fun item => answer (f item) s := by
  induction items with
  | nil => rfl
  | cons item rest ih =>
    rw [List.mapM_cons, List.mapM_cons, answer_bind (hf item)]
    simp only [answer_bind (Quiet.mapMExcept hf rest), ih]
    rfl

end Answers

/-! ## Still file systems -/

/-- A file system in which looking at files changes nothing. -/
structure FileSystem.Still (files : FileSystem (StateM σ)) : Prop where
  kind (path : String) : Quiet (files.kind path)
  read (path : String) : Quiet (files.read path)
  entries (path : String) : Quiet (files.entries path)

theorem FileTree.still_system (depth : Nat) : (FileTree.system depth).Still :=
  ⟨fun _ _ => rfl, fun _ _ => rfl, fun _ _ => rfl⟩

namespace Glob

variable {files : FileSystem (StateM σ)}
variable {find : List Component → Place → ExceptT String (StateM σ) (List Place)}

section Steps

variable (still : files.Still) (hf : ∀ components place, Quiet (find components place).run)

include still in
theorem quiet_placeOf (path : String) : Quiet (placeOf files path) :=
  (still.kind path).bind fun _ => .pure _

include hf

theorem quiet_proceed (rest : List Component) (place : Place) :
    Quiet (proceed find rest place).run := by
  unfold proceed
  split
  · exact .pure _
  · exact hf rest place

theorem quiet_enter (components : List Component) (name : String) (place : Place) :
    Quiet (enter find components name place).run := by
  unfold enter
  split
  · exact .pure _
  · split
    · exact quiet_proceed hf _ _
    · exact .pure _

theorem quiet_visit (components : List Component) (name : String) (place : Place) :
    Quiet (visit find components name place).run := by
  unfold visit
  split
  · refine (quiet_enter hf _ _ _).bindExcept fun _ => ?_
    split
    · exact (hf _ _).bindExcept fun _ => .pure _
    · exact .pure _
  · exact quiet_enter hf _ _ _

include still

theorem quiet_lookUp (name : String) (rest : List Component) (place : Place) :
    Quiet (lookUp find files name rest place).run := by
  refine (still.kind _).liftExcept.bindExcept fun found => ?_
  have either (goesOn : Bool) (place : Place) :
      Quiet (if goesOn then proceed find rest place else pure []).run := by
    cases goesOn with
    | true => exact quiet_proceed hf rest place
    | false => exact .pure _
  exact either _ _

theorem quiet_visitDots (component : Component) (rest : List Component) (place : Place) :
    Quiet (visitDots find files component rest place).run := by
  unfold visitDots
  split
  · refine (Quiet.mapMExcept (fun name => ?_) _).bindExcept fun _ => .pure _
    split
    · exact (quiet_placeOf still _).liftExcept.bindExcept fun _ => quiet_proceed hf _ _
    · exact .pure _
  · exact .pure _

theorem quiet_findWith (components : List Component) (place : Place) :
    Quiet (findWith find files components place).run := by
  unfold findWith
  split
  · exact .pure _
  · split
    · exact quiet_lookUp still hf _ _ _
    · split
      · refine (still.entries _).liftExcept.bindExcept fun entries => ?_
        split
        · exact .pure _
        · refine (quiet_visitDots still hf _ _ _).bindExcept fun _ => ?_
          exact (Quiet.mapMExcept (fun _ => quiet_visit hf _ _ _) _).bindExcept fun _ => .pure _
      · exact .pure _

end Steps

variable (still : files.Still)

include still

theorem quiet_findWithin (steps : Nat) (components : List Component) (place : Place) :
    Quiet (findWithin files steps components place).run := by
  induction steps generalizing components place with
  | zero => exact .pure _
  | succ steps ih => exact quiet_findWith still ih components place

/-- To find the paths that match a pattern changes nothing. -/
theorem quiet_paths (glob : Glob) : Quiet (glob.paths files).run :=
  (quiet_placeOf still _).liftExcept.bindExcept fun _ =>
    (quiet_findWithin still _ _ _).bindExcept fun _ => .pure _

end Glob

end SchemaDoc
