import SchemaDoc.Json.Reader

/-!
# Keys of objects

An object has each key once.  The type of values does not say so, but `Json.uniqueKeys` does, and
every value that is read has it, `Json.uniqueKeys_of_parse?`: a member whose key is there already
takes the place of the old one.
-/

namespace SchemaDoc.Json

mutual

/-- Whether no object in a value has a key twice. -/
def uniqueKeys : Json → Bool
  | .object members => decide (Table.keys members).Nodup && uniqueKeysInMembers members
  | .array items => uniqueKeysInItems items
  | _ => true
termination_by structural value => value

/-- Whether no object in the members of another has a key twice. -/
def uniqueKeysInMembers : List (String × Json) → Bool
  | [] => true
  | (_, value) :: rest => uniqueKeys value && uniqueKeysInMembers rest
termination_by structural members => members

/-- Whether no object in the items of an array has a key twice. -/
def uniqueKeysInItems : List Json → Bool
  | [] => true
  | item :: rest => uniqueKeys item && uniqueKeysInItems rest
termination_by structural items => items

end

theorem uniqueKeysInMembers_iff {members : List (String × Json)} :
    uniqueKeysInMembers members = true ↔ ∀ member ∈ members, member.2.uniqueKeys = true := by
  induction members with
  | nil => simp [uniqueKeysInMembers]
  | cons member rest ih => simp [uniqueKeysInMembers, ih]

theorem uniqueKeysInItems_iff {items : List Json} :
    uniqueKeysInItems items = true ↔ ∀ item ∈ items, item.uniqueKeys = true := by
  induction items with
  | nil => simp [uniqueKeysInItems]
  | cons item rest ih => simp [uniqueKeysInItems, ih]

theorem uniqueKeys_object {members : List (String × Json)} :
    (Json.object members).uniqueKeys = true ↔
      (Table.keys members).Nodup ∧ ∀ member ∈ members, member.2.uniqueKeys = true := by
  rw [uniqueKeys, Bool.and_eq_true, decide_eq_true_iff, uniqueKeysInMembers_iff]

theorem uniqueKeys_array {items : List Json} :
    (Json.array items).uniqueKeys = true ↔ ∀ item ∈ items, item.uniqueKeys = true := by
  rw [uniqueKeys, uniqueKeysInItems_iff]

/-! ## Values that are read -/

/-- A member that is put into a table is the only new one. -/
theorem eq_or_mem_of_mem_put {members : Table String Json} {key : String} {value : Json}
    {member : String × Json} (h : member ∈ members.put key value) :
    member = (key, value) ∨ member ∈ members := by
  induction members with
  | nil => exact .inl (List.mem_singleton.mp h)
  | cons first rest ih =>
    obtain ⟨k, v⟩ := first
    rw [Table.put] at h
    split at h
    · rename_i hk
      rcases List.mem_cons.mp h with h | h
      · exact .inl (hk ▸ h)
      · exact .inr (List.mem_cons_of_mem _ h)
    · rcases List.mem_cons.mp h with rfl | h
      · exact .inr List.mem_cons_self
      · exact (ih h).imp_right (List.mem_cons_of_mem _)

theorem uniqueKeys_put {members : Table String Json} {value : Json} (key : String)
    (h : (Json.object members).uniqueKeys = true) (hv : value.uniqueKeys = true) :
    (Json.object (members.put key value)).uniqueKeys = true := by
  rw [uniqueKeys_object] at h ⊢
  refine ⟨Table.nodup_put h.1 _ _, fun member hm => ?_⟩
  rcases eq_or_mem_of_mem_put hm with rfl | hm
  · exact hv
  · exact h.2 member hm

/-- The value of a lexeme that has one has each key once. -/
def Lexeme.UniqueKeys : Lexeme → Prop
  | .scalar value => value.uniqueKeys = true
  | _ => True

theorem uniqueKeys_of_readWord? {word : List Char} {value : Json}
    (h : readWord? word = some value) : value.uniqueKeys = true := by
  rw [readWord?] at h
  split at h
  · cases h
    rfl
  · split at h
    · cases h
      rfl
    · split at h
      · cases h
        rfl
      · obtain ⟨number, -, rfl⟩ := Option.map_eq_some_iff.mp h
        rfl

theorem uniqueKeys_of_scanBetween {c : Char} {lexemes : List Lexeme} {next : Scan}
    (h : scanBetween c = some (lexemes, next)) : ∀ lexeme ∈ lexemes, lexeme.UniqueKeys := by
  unfold scanBetween at h
  split at h <;> cases h <;> simp [Lexeme.UniqueKeys]

/-- A lexeme that a character completes is a mark, a word or a string. -/
theorem uniqueKeys_of_scan {scan next : Scan} {c : Char} {lexemes : List Lexeme}
    (h : scan.step c = some (lexemes, next)) : ∀ lexeme ∈ lexemes, lexeme.UniqueKeys := by
  cases scan with
  | between => exact uniqueKeys_of_scanBetween h
  | word read =>
    rw [Scan.step] at h
    split at h
    · obtain ⟨value, hv, h⟩ := Option.bind_eq_some_iff.mp h
      obtain ⟨⟨more, after⟩, hm, h⟩ := Option.bind_eq_some_iff.mp h
      cases h
      exact List.forall_mem_cons.mpr ⟨uniqueKeys_of_readWord? hv, uniqueKeys_of_scanBetween hm⟩
    · cases h
      exact nofun
  | text read =>
    rw [Scan.step] at h
    split at h
    · cases h
      exact List.forall_mem_cons.mpr ⟨rfl, nofun⟩
    · split at h
      · cases h
        exact nofun
      · split at h
        · cases h
        · cases h
          exact nofun
  | escape read =>
    rw [Scan.step] at h
    split at h
    · cases h
      exact nofun
    · obtain ⟨_, -, h⟩ := Option.map_eq_some_iff.mp h
      cases h
      exact nofun
  | unit read high left value =>
    obtain ⟨digit, -, h⟩ := Option.bind_eq_some_iff.mp h
    dsimp only at h
    split at h
    · obtain ⟨_, -, h⟩ := Option.map_eq_some_iff.mp h
      cases h
      exact nofun
    · cases h
      exact nofun
  | pair read high slash =>
    rw [Scan.step] at h
    split at h
    · split at h
      · cases h
        exact nofun
      · cases h
    · split at h
      · cases h
        exact nofun
      · cases h

theorem lexemesFrom_cons (scan : Scan) (c : Char) (rest : List Char) :
    lexemesFrom scan (c :: rest) = (scan.step c).bind fun step =>
      (lexemesFrom step.2 rest).bind fun more => some (step.1 ++ more) := by
  cases scan <;> rfl

theorem uniqueKeys_of_lexemesFrom (text : List Char) :
    ∀ {scan : Scan} {lexemes : List Lexeme}, lexemesFrom scan text = some lexemes →
      ∀ lexeme ∈ lexemes, lexeme.UniqueKeys := by
  induction text with
  | nil =>
    intro scan lexemes h
    unfold lexemesFrom at h
    split at h
    · cases h
      exact nofun
    · obtain ⟨value, hv, rfl⟩ := Option.map_eq_some_iff.mp h
      exact List.forall_mem_cons.mpr ⟨uniqueKeys_of_readWord? hv, nofun⟩
    · cases h
    · rename_i he
      cases he
  | cons c rest ih =>
    intro scan lexemes h
    rw [lexemesFrom_cons] at h
    obtain ⟨⟨first, next⟩, hf, h⟩ := Option.bind_eq_some_iff.mp h
    obtain ⟨more, hm, h⟩ := Option.bind_eq_some_iff.mp h
    cases h
    exact List.forall_mem_append.mpr ⟨uniqueKeys_of_scan hf, ih hm⟩

/-- What an open array or object has so far has each key once. -/
def Frame.UniqueKeys : Frame → Prop
  | .array items => (Json.array items).uniqueKeys = true
  | .object members _ => (Json.object members).uniqueKeys = true

/-- All that is read so far has each key once. -/
structure Parser.UniqueKeys (parser : Parser) : Prop where
  frames : ∀ frame ∈ parser.frames, frame.UniqueKeys
  value : ∀ value, parser.expect = .after value → value.uniqueKeys = true

theorem Parser.uniqueKeys_begin {frames : List Frame} {lexeme : Lexeme} {next : Parser}
    (hf : ∀ frame ∈ frames, frame.UniqueKeys) (hl : lexeme.UniqueKeys)
    (h : begin frames lexeme = some next) : next.UniqueKeys := by
  unfold begin at h
  split at h
  · cases h
    exact ⟨hf, fun _ e => by cases e; exact hl⟩
  · split at h
    · cases h
      exact ⟨List.forall_mem_cons.mpr ⟨rfl, hf⟩, nofun⟩
    · cases h
  · split at h
    · cases h
      exact ⟨List.forall_mem_cons.mpr ⟨rfl, hf⟩, nofun⟩
    · cases h
  · cases h

theorem Parser.uniqueKeys_readKey {frames : List Frame} {lexeme : Lexeme} {next : Parser}
    (hf : ∀ frame ∈ frames, frame.UniqueKeys) (h : readKey frames lexeme = some next) :
    next.UniqueKeys := by
  unfold readKey at h
  split at h
  · cases h
    obtain ⟨opened, outer⟩ := List.forall_mem_cons.mp hf
    exact ⟨List.forall_mem_cons.mpr ⟨opened, outer⟩, nofun⟩
  · cases h

theorem Parser.uniqueKeys_continue {frames : List Frame} {value : Json} {lexeme : Lexeme}
    {next : Parser} (hf : ∀ frame ∈ frames, frame.UniqueKeys) (hv : value.uniqueKeys = true)
    (h : Parser.continue value frames lexeme = some next) : next.UniqueKeys := by
  have array {items : List Json} (hi : (Json.array items).uniqueKeys = true) :
      (Json.array (value :: items)).uniqueKeys = true := by
    rw [uniqueKeys_array] at hi ⊢
    exact List.forall_mem_cons.mpr ⟨hv, hi⟩
  unfold Parser.continue at h
  split at h
  · cases h
    obtain ⟨opened, outer⟩ := List.forall_mem_cons.mp hf
    exact ⟨List.forall_mem_cons.mpr ⟨array opened, outer⟩, nofun⟩
  · cases h
    obtain ⟨opened, outer⟩ := List.forall_mem_cons.mp hf
    refine ⟨outer, fun _ e => ?_⟩
    cases e
    rw [uniqueKeys_array]
    exact fun item hi => uniqueKeys_array.mp (array opened) item (List.mem_reverse.mp hi)
  · cases h
    obtain ⟨opened, outer⟩ := List.forall_mem_cons.mp hf
    exact ⟨List.forall_mem_cons.mpr ⟨uniqueKeys_put _ opened hv, outer⟩, nofun⟩
  · cases h
    obtain ⟨opened, outer⟩ := List.forall_mem_cons.mp hf
    exact ⟨outer, fun _ e => by cases e; exact uniqueKeys_put _ opened hv⟩
  · cases h

/-- A lexeme keeps what is read so far such that it has each key once. -/
theorem Parser.uniqueKeys_step {parser next : Parser} {lexeme : Lexeme} (hp : parser.UniqueKeys)
    (hl : lexeme.UniqueKeys) (h : parser.step lexeme = some next) : next.UniqueKeys := by
  obtain ⟨hf, hv⟩ := hp
  unfold Parser.step at h
  split at h
  · rename_i he
    cases h
    rw [he] at hf
    obtain ⟨opened, outer⟩ := List.forall_mem_cons.mp hf
    exact ⟨outer, fun _ e => by cases e; exact opened⟩
  · rename_i he
    cases h
    rw [he] at hf
    obtain ⟨opened, outer⟩ := List.forall_mem_cons.mp hf
    exact ⟨outer, fun _ e => by cases e; exact opened⟩
  · exact uniqueKeys_begin hf hl h
  · exact uniqueKeys_begin hf hl h
  · exact uniqueKeys_readKey hf h
  · exact uniqueKeys_readKey hf h
  · cases h
    exact ⟨hf, nofun⟩
  · cases h
  · rename_i he
    exact uniqueKeys_continue hf (hv _ he) h

/-- A value that is read has each key of an object once. -/
theorem uniqueKeys_of_parse? {text : String} {value : Json} (h : parse? text = some value) :
    value.uniqueKeys = true := by
  have run (lexemes : List Lexeme) : ∀ parser last : Parser, parser.UniqueKeys →
      (∀ lexeme ∈ lexemes, lexeme.UniqueKeys) → lexemes.foldlM Parser.step parser = some last →
      last.UniqueKeys := by
    induction lexemes with
    | nil =>
      intro parser last hp _ h
      cases h
      exact hp
    | cons lexeme rest ih =>
      intro parser last hp hl h
      obtain ⟨first, others⟩ := List.forall_mem_cons.mp hl
      rw [List.foldlM_cons] at h
      obtain ⟨next, hn, h⟩ := Option.bind_eq_some_iff.mp h
      exact ih next last (Parser.uniqueKeys_step hp first hn) others h
  obtain ⟨lexemes, hl, h⟩ := Option.bind_eq_some_iff.mp h
  obtain ⟨parser, hp, h⟩ := Option.bind_eq_some_iff.mp h
  have last := run lexemes ⟨[], .value⟩ parser ⟨nofun, nofun⟩ (uniqueKeys_of_lexemesFrom _ hl) hp
  split at h
  · cases h
    exact last.value _ rfl
  · cases h

end SchemaDoc.Json
