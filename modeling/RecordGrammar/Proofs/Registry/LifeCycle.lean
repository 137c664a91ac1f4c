import RecordGrammar.Proofs.Registry.Session

namespace RecordGrammar

/-! The life of a shape, from its registration on.

A shape has two latches, its tree and the type of its records. Whatever is done, and whether it
succeeds or not, both are closed with the fields that the shape has from then on: the tree is the
one that these fields made when it was first built, and the records have these fields. -/

namespace Shape

variable {shape next : Shape} {id : ShapeId} {kinds : KindTable}

theorem store_ok {field : String} {value : Value} {entry : String × Value}
    (stored : shape.store field value = .ok entry) : entry = (field, value) := by
  unfold store at stored
  repeat' split at stored
  all_goals cases stored
  rfl

theorem mapM_store_ok {fields : List Field} {value : Field → Value}
    {attributes : List (String × Value)}
    (stored : (fields.mapM fun field => shape.store field.name (value field)) = .ok attributes) :
    attributes = fields.map fun field => (field.name, value field) := by
  induction fields generalizing attributes with
  | nil =>
      cases stored
      rfl
  | cons field rest ih =>
      rw [List.mapM_cons] at stored
      obtain ⟨entry, first, stored⟩ := Tree.bind_eq_ok stored
      obtain ⟨entries, later, stored⟩ := Tree.bind_eq_ok stored
      cases stored
      rw [List.map_cons, store_ok first, ih later]

/-- A record has the fields of its shape, in their order. -/
theorem construct_ok (generated : shape.factory = none) {values : List (String × Value)}
    {value : Value} (made : shape.construct id values = .ok value) :
    value = .entity (.record id) shape.name none
      (shape.fields.map fun field =>
        (field.name, (Value.named? values field.name).getD .null)) := by
  simp only [construct, generated] at made
  split at made
  · cases made
  · cases made
  · obtain ⟨attributes, stored, made⟩ := Tree.bind_eq_ok made
    split at made
    · cases made
      rw [mapM_store_ok stored]
    · cases made

theorem construct_names (generated : shape.factory = none) {values : List (String × Value)}
    {value : Value} (made : shape.construct id values = .ok value) :
    ∃ attributes, value = .entity (.record id) shape.name none attributes ∧
      attributes.map (·.1) = shape.fields.map (·.name) := by
  refine ⟨_, construct_ok generated made, ?_⟩
  rw [List.map_map]
  rfl

theorem compile_error_of_ready (ready : (shape.compile id kinds).shape.phase = .ready) :
    (shape.compile id kinds).error = none := by
  cases phase : shape.phase with
  | ready => rw [compile_of_ready phase]
  | compiling => simp [compile, phase] at ready
  | pending =>
      cases made : shape.ruleTree id kinds with
      | error error =>
          obtain ⟨_, tokens, same⟩ := compile_of_error phase made
          simp [same, phase] at ready
      | ok root => exact (compile_of_ok phase made).1

theorem compile_error_of_pending (pending : (shape.compile id kinds).shape.phase = .pending) :
    (shape.compile id kinds).error ≠ none := by
  cases phase : shape.phase with
  | ready => simp [compile_of_ready phase, phase] at pending
  | compiling => simp [compile, phase] at pending
  | pending =>
      cases made : shape.ruleTree id kinds with
      | error error => simp [(compile_of_error phase made).1]
      | ok root =>
          obtain ⟨_, tokens, same⟩ := compile_of_ok phase made
          simp [same] at pending

/-- A shape to which nothing has happened that counts: it has its fields, its tree and its phase. -/
structure Unmoved (shape next : Shape) : Prop where
  name : next.name = shape.name
  fields : next.fields = shape.fields
  phase : next.phase = shape.phase
  root : next.root = shape.root

theorem Unmoved.trans {last : Shape} (first : shape.Unmoved next) (second : next.Unmoved last) :
    shape.Unmoved last :=
  ⟨second.name.trans first.name, second.fields.trans first.fields, second.phase.trans first.phase,
    second.root.trans first.root⟩

theorem Becomes.unmoved (becomes : Becomes id kinds shape next)
    (unbuilt : ∀ root, next.phase = .ready → next.root = some root →
      shape.ruleTree id kinds ≠ .ok root) :
    shape.Unmoved next := by
  rcases becomes.tree with ⟨phase, root⟩ | ⟨_, ready, root, made, stored⟩
  · exact ⟨becomes.name, becomes.fields, phase, root⟩
  · exact absurd made (unbuilt root ready stored)

theorem Unmoved.compile (unmoved : shape.Unmoved next) (id : ShapeId) (kinds : KindTable) :
    (next.compile id kinds).error = (shape.compile id kinds).error ∧
      (next.compile id kinds).warnings = (shape.compile id kinds).warnings ∧
      (shape.compile id kinds).shape.Unmoved (next.compile id kinds).shape := by
  obtain ⟨name, fields, phase, root⟩ := unmoved
  have warnings (ordinal : Nat) (some : List Field) :
      next.warningsFrom ordinal some = shape.warningsFrom ordinal some := by
    induction some generalizing ordinal with
    | nil => rfl
    | cons field rest ih => simp only [warningsFrom, unusedElement, name, ih]
  simp only [Shape.compile, phase, fields, name, warnings]
  cases found : shape.phase with
  | ready | compiling => exact ⟨rfl, rfl, name, fields, phase, root⟩
  | pending =>
      cases RuleToken.lexAll 0 shape.fields with
      | error error => exact ⟨rfl, rfl, name, fields, phase, root⟩
      | ok tokens =>
          simp only
          cases Tree.build { kinds, owner := .shape id shape.name } tokens with
          | error error => exact ⟨rfl, rfl, rfl, rfl, rfl, root⟩
          | ok root => exact ⟨rfl, rfl, rfl, rfl, rfl, rfl⟩

/-- A shape between two operations: its fields go together, and the tree that it has is one that
they make. -/
structure Sound (id : ShapeId) (shape : Shape) : Prop where
  wellFormed : shape.WellFormed
  phase : shape.phase = .pending ∨ shape.phase = .ready
  compiled : shape.phase = .ready → ∃ kinds root, shape.ruleTree id kinds = .ok root ∧
    shape.root = some root

theorem sound_new (id : ShapeId) (name : String) (grammar scanner : Option Nat)
    (factory : Option (List (String × Value))) : Sound id { name, grammar, scanner, factory } := by
  refine ⟨?_, .inl rfl, nofun⟩
  constructor <;> simp

theorem Sound.becomes (sound : shape.Sound id) (becomes : Becomes id kinds shape next) :
    next.Sound id := by
  obtain ⟨distinct, named, nested, collects⟩ := sound.wellFormed
  rw [← becomes.fields] at distinct named nested collects
  refine ⟨⟨distinct, named, nested, collects⟩, ?_, ?_⟩
  · rcases becomes.tree with ⟨same, _⟩ | ⟨_, ready, _⟩
    · rw [same]
      exact sound.phase
    · exact .inr ready
  · intro ready
    have same := ruleTree_congr becomes.name becomes.fields id
    rcases becomes.tree with ⟨phase, root⟩ | ⟨_, _, root, made, stored⟩
    · obtain ⟨table, tree, made, stored⟩ := sound.compiled (phase.symm.trans ready)
      exact ⟨table, tree, (same table).trans made, root.trans stored⟩
    · exact ⟨kinds, root, (same kinds).trans made, stored⟩

theorem Sound.register {field : Field} (sound : shape.Sound id)
    (added : shape.register field = .ok next) :
    next.Sound id := by
  have pending := (pending_register added).1
  refine ⟨sound.wellFormed.register added, .inl pending, ?_⟩
  intro ready
  cases pending.symm.trans ready

/-- The tree that a shape has, or will have, is one that its fields make. -/
theorem Sound.rootWith {root : Tree} (sound : shape.Sound id)
    (made : shape.rootWith id kinds = .ok root) :
    ∃ table, shape.ruleTree id table = .ok root := by
  have after := sound.becomes (Becomes.compile id kinds shape)
  unfold Shape.rootWith at made
  simp only at made
  split at made
  · cases made
  · rename_i fine
    split at made
    · rename_i stored
      cases made
      have ready : (shape.compile id kinds).shape.phase = .ready := by
        rcases after.phase with pending | ready
        · exact absurd fine (compile_error_of_pending pending)
        · exact ready
      obtain ⟨table, tree, same, held⟩ := after.compiled ready
      cases stored.symm.trans held
      have becomes := Becomes.compile id kinds shape
      exact ⟨table, (ruleTree_congr becomes.name becomes.fields id table).symm.trans same⟩
    · cases made

end Shape

/-- The operations that extend or build a certain shape on purpose. -/
inductive Operation.Addresses (id : ShapeId) : Operation → Prop
  | register (field : Field) : Addresses id (.register id field)
  | compile (kinds : KindTable) : Addresses id (.compile id kinds)
  | root (scanner : Option Nat) : Addresses id (.root id scanner)

namespace Registry

/-- An operation that tries to extend or to build a shape and does not succeed. A shape that only
comes to be needed on the way cannot be built if its rules make no tree. -/
def Fails (registry : Registry) (id : ShapeId) (operation : Operation) : Prop :=
  operation.Addresses id ∧ (∃ fault, (registry.perform operation).1 = .error fault) ∨
  (∀ field, operation ≠ .register id field) ∧
    ∃ error, (registry.shape id).ruleTree id (registry.kindsIn operation) = .error error

/-- An operation builds the tree of a shape. From then on, whatever is done, the tree is the one
that the fields make with the names of that operation, and the fields are those that the shape
had. -/
structure BuiltBy (registry : Registry) (earlier : List Operation) (operation : Operation)
    (id : ShapeId) :
    Prop where
  before : ((registry.performAll earlier).shape id).phase = .pending
  after : ∃ root, ∀ more,
    let now := (registry.performAll (earlier ++ operation :: more)).shape id
    now.phase = .ready ∧ now.root = some root ∧
      now.fields = ((registry.performAll earlier).shape id).fields ∧
      now.ruleTree id ((registry.performAll earlier).kindsIn operation) = .ok root

/-- An operation makes the type of the records of a shape. From then on, whatever is done, the
fields are those that the shape had. -/
structure ClosedBy (registry : Registry) (earlier : List Operation) (operation : Operation)
    (id : ShapeId) :
    Prop where
  before : ((registry.performAll earlier).shape id).hasRecord = false
  after : ∀ more,
    let now := (registry.performAll (earlier ++ operation :: more)).shape id
    now.hasRecord = true ∧ now.fields = ((registry.performAll earlier).shape id).fields

/-- What holds of a shape between two operations. -/
structure LifeCycle (registry : Registry) (operations : List Operation) (id : ShapeId)
    (now : Shape) : Prop where
  wellFormed : now.WellFormed
  phase : now.phase = .pending ∨ now.phase = .ready
  built : now.phase = .ready → ∃ earlier operation later,
    operations = earlier ++ operation :: later ∧ registry.BuiltBy earlier operation id
  closed : now.hasRecord = true → ∃ earlier operation later,
    operations = earlier ++ operation :: later ∧ registry.ClosedBy earlier operation id
  records : now.factory = none → ∀ values value, now.construct id values = .ok value →
    ∃ attributes, value = .entity (.record id) now.name none attributes ∧
      attributes.map (·.1) = now.fields.map (·.name)
  refused : ∀ operation, (registry.performAll operations).Fails id operation →
    now.Unmoved ((registry.performAll (operations ++ [operation])).shape id)
  retried : ∀ failed, (∀ before operation after, failed = before ++ operation :: after →
      (registry.performAll (operations ++ before)).Fails id operation) → ∀ kinds,
    let first := (registry.performAll operations).compile id kinds
    let again := (registry.performAll (operations ++ failed)).compile id kinds
    again.result = first.result ∧ again.warnings = first.warnings ∧
      (first.registry.shape id).Unmoved (again.registry.shape id)

section Operations

variable {registry : Registry} {id : ShapeId}

theorem performAll_known (known : id < registry.shapes.length) (operations : List Operation) :
    id < (registry.performAll operations).shapes.length := by
  induction operations generalizing registry with
  | nil => exact known
  | cons operation rest ih => exact ih (perform_step known operation).1

/-- What using a shape keeps, and registering a field too, is kept by all operations. -/
theorem performAll_shape (holds : Shape → Prop) (known : id < registry.shapes.length)
    (used : ∀ kinds shape next, holds shape → shape.Becomes id kinds next → holds next)
    (extended : ∀ field shape next, holds shape → shape.register field = .ok next → holds next)
    (start : holds (registry.shape id)) (operations : List Operation) :
    holds ((registry.performAll operations).shape id) := by
  induction operations generalizing registry with
  | nil => exact start
  | cons operation rest ih =>
      obtain ⟨knownNext, becomes | ⟨field, _, added⟩⟩ := perform_step known operation
      · exact ih knownNext (used _ _ _ start becomes)
      · exact ih knownNext (extended field _ _ start added)

/-- A tree stays as it is, and so do the fields that it was built from. -/
theorem performAll_ready (known : id < registry.shapes.length)
    (ready : (registry.shape id).phase = .ready) (operations : List Operation) :
    (registry.shape id).Unmoved ((registry.performAll operations).shape id) := by
  refine performAll_shape (Shape.Unmoved (registry.shape id)) known ?_ ?_
    ⟨rfl, rfl, rfl, rfl⟩ operations
  · intro kinds shape next kept becomes
    apply kept.trans
    rcases becomes.tree with ⟨phase, root⟩ | ⟨pending, _⟩
    · exact ⟨becomes.name, becomes.fields, phase, root⟩
    · cases pending.symm.trans (kept.phase.trans ready)
  · intro field shape next kept added
    cases (Shape.register_ok added).2.1.symm.trans (kept.phase.trans ready)

theorem performAll_closed (known : id < registry.shapes.length)
    (closed : (registry.shape id).hasRecord = true) (operations : List Operation) :
    ((registry.performAll operations).shape id).hasRecord = true ∧
      ((registry.performAll operations).shape id).fields = (registry.shape id).fields := by
  refine performAll_shape
    (fun shape => shape.hasRecord = true ∧ shape.fields = (registry.shape id).fields) known
    ?_ ?_ ⟨closed, rfl⟩ operations
  · intro kinds shape next kept becomes
    exact ⟨becomes.closed kept.1, becomes.fields.trans kept.2⟩
  · intro field shape next kept added
    cases (Shape.register_ok added).1.symm.trans kept.1

/-- What holds of a shape in the end and did not hold at first came about by one of the
operations. -/
theorem exists_turn (holds : Shape → Prop) {operations : List Operation}
    (start : ¬ holds (registry.shape id))
    (now : holds ((registry.performAll operations).shape id)) :
    ∃ earlier operation later, operations = earlier ++ operation :: later ∧
      ¬ holds ((registry.performAll earlier).shape id) ∧
      holds (((registry.performAll earlier).perform operation).2.shape id) := by
  induction operations generalizing registry with
  | nil => exact absurd now start
  | cons operation rest ih =>
      by_cases turned : holds ((registry.perform operation).2.shape id)
      · exact ⟨[], operation, rest, rfl, start, turned⟩
      · obtain ⟨earlier, other, later, same, before, after⟩ := ih turned now
        exact ⟨operation :: earlier, other, later, by rw [same, List.cons_append], before, after⟩

theorem performAll_builtBy (known : id < registry.shapes.length) {operations : List Operation}
    (start : (registry.shape id).phase ≠ .ready)
    (ready : ((registry.performAll operations).shape id).phase = .ready) :
    ∃ earlier operation later, operations = earlier ++ operation :: later ∧
      registry.BuiltBy earlier operation id := by
  obtain ⟨earlier, operation, later, split, before, after⟩ :=
    exists_turn (fun shape => shape.phase = .ready) start ready
  refine ⟨earlier, operation, later, split, ?_⟩
  obtain ⟨knownNext, becomes | ⟨field, _, added⟩⟩ :=
    perform_step (performAll_known known earlier) operation
  · rcases becomes.tree with ⟨phase, _⟩ | ⟨pending, _, root, made, stored⟩
    · exact absurd (phase.symm.trans after) before
    · refine ⟨pending, root, ?_⟩
      intro more
      rw [performAll_append]
      have kept := performAll_ready knownNext after more
      have fields := kept.fields.trans becomes.fields
      have same := Shape.ruleTree_congr (kept.name.trans becomes.name) fields id
      exact ⟨kept.phase.trans after, kept.root.trans stored, fields, (same _).trans made⟩
  · cases (Shape.pending_register added).1.symm.trans after

theorem performAll_closedBy (known : id < registry.shapes.length) {operations : List Operation}
    (start : (registry.shape id).hasRecord = false)
    (closed : ((registry.performAll operations).shape id).hasRecord = true) :
    ∃ earlier operation later, operations = earlier ++ operation :: later ∧
      registry.ClosedBy earlier operation id := by
  obtain ⟨earlier, operation, later, split, before, after⟩ :=
    exists_turn (fun shape => shape.hasRecord = true) (by simp [start]) closed
  refine ⟨earlier, operation, later, split, Bool.eq_false_iff.mpr before, ?_⟩
  intro more
  obtain ⟨knownNext, becomes | ⟨field, _, added⟩⟩ :=
    perform_step (performAll_known known earlier) operation
  · have kept := performAll_closed knownNext after more
    rw [performAll_append]
    exact ⟨kept.1, kept.2.trans becomes.fields⟩
  · obtain ⟨opened, _, _, _, _, same⟩ := Shape.register_ok added
    rw [same, opened] at after
    cases after

theorem compile_ok_of_ready (known : id < registry.shapes.length) {kinds : KindTable}
    (ready : ((registry.compile id kinds).registry.shape id).phase = .ready) :
    (registry.compile id kinds).result = .ok () := by
  simp only [compile] at ready ⊢
  rw [shape_setShape, if_pos ⟨rfl, known⟩] at ready
  rw [Shape.compile_error_of_ready ready]

theorem Fails.unmoved (known : id < registry.shapes.length) {operation : Operation}
    (fails : registry.Fails id operation) :
    (registry.shape id).Unmoved ((registry.perform operation).2.shape id) := by
  rcases fails with ⟨addresses, fault, failed⟩ | ⟨other, error, wrong⟩
  · cases addresses with
    | register field =>
        simp only [perform] at failed ⊢
        cases added : registry.register id field with
        | error error => exact ⟨rfl, rfl, rfl, rfl⟩
        | ok next => simp [added, Except.mapError, attempted] at failed
    | compile kinds =>
        apply (Becomes.compile kinds registry id).shape id |>.unmoved
        intro root ready _ _
        simp [perform, Report.ending, compile_ok_of_ready known ready, Except.map] at failed
    | root scanner =>
        apply ((Becomes.lasting _ registry).treeOf (.refl _ registry)).shape id |>.unmoved
        intro root ready stored _
        have asked :=
          ((Becomes.lasting [] registry).scannerFor (.refl _ registry)
            { shape := id, scanner }).count
        rw [treeOf_eq] at ready stored
        have compiled : (registry.compiledFor { shape := id, scanner }).result = .ok () :=
          compile_ok_of_ready (asked ▸ known) ready
        simp only at stored
        simp [perform, treeOf_eq, Report.ending, compiled, stored, bind, Except.bind,
          Except.map, pure, Except.pure] at failed
  · obtain ⟨_, becomes | ⟨field, same, _⟩⟩ := perform_step known operation
    · apply becomes.unmoved
      intro root _ _ made
      cases wrong.symm.trans made
    · exact absurd same (other field)

theorem Fails.unmovedAll (known : id < registry.shapes.length) {failed : List Operation}
    (fails : ∀ before operation after, failed = before ++ operation :: after →
      (registry.performAll before).Fails id operation) :
    (registry.shape id).Unmoved ((registry.performAll failed).shape id) := by
  induction failed generalizing registry with
  | nil => exact ⟨rfl, rfl, rfl, rfl⟩
  | cons operation rest ih =>
      apply (Fails.unmoved known (fails [] operation rest rfl)).trans
      refine ih (perform_step known operation).1 ?_
      intro before other after split
      exact fails (operation :: before) other after (by rw [split, List.cons_append])

theorem compile_eq_of_unmoved {other : Registry} (known : id < registry.shapes.length)
    (knownToo : id < other.shapes.length) (unmoved : (registry.shape id).Unmoved (other.shape id))
    (kinds : KindTable) :
    (other.compile id kinds).result = (registry.compile id kinds).result ∧
      (other.compile id kinds).warnings = (registry.compile id kinds).warnings ∧
      ((registry.compile id kinds).registry.shape id).Unmoved
        ((other.compile id kinds).registry.shape id) := by
  obtain ⟨error, warnings, shapes⟩ := unmoved.compile id kinds
  simp only [compile, error, warnings]
  rw [shape_setShape, shape_setShape, if_pos ⟨rfl, known⟩, if_pos ⟨rfl, knownToo⟩]
  exact ⟨trivial, trivial, shapes⟩

end Operations

/-- The life of a shape: whatever has been done since it was added, in whatever order and with
whatever success, its fields, its tree and its records are in step. -/
theorem performAll_lifeCycle {registry start : Registry} {id : ShapeId} {name : String}
    {grammar scanner : Option Nat} {factory : Option (List (String × Value))}
    (added : registry.addShape { name, grammar, scanner, factory } = .ok (start, id))
    (operations : List Operation) :
    start.LifeCycle operations id ((start.performAll operations).shape id) := by
  obtain ⟨number, scopes, same⟩ := addShape_ok added
  have known : id < start.shapes.length := by
    rw [same, number, List.length_append, List.length_singleton]
    exact Nat.lt_succ_self _
  have blank : start.shape id = { name, grammar, scanner, factory } := by
    rw [same, shape_append, if_pos number]
  have knownNow := performAll_known known operations
  have sound : ((start.performAll operations).shape id).Sound id := by
    refine performAll_shape (Shape.Sound id) known ?_ ?_ ?_ operations
    · exact fun _ _ _ sound becomes => sound.becomes becomes
    · exact fun _ _ _ sound added => sound.register added
    · rw [blank]
      exact Shape.sound_new id name grammar scanner factory
  refine ⟨sound.wellFormed, sound.phase, ?_, ?_, ?_, ?_, ?_⟩
  · exact performAll_builtBy known (by simp [blank])
  · exact performAll_closedBy known (by rw [blank])
  · intro generated values value made
    exact Shape.construct_names generated made
  · intro operation fails
    rw [performAll_concat]
    exact fails.unmoved knownNow
  · intro failed fails kinds
    simp only [performAll_append] at fails ⊢
    have unmoved := Fails.unmovedAll knownNow fails
    exact compile_eq_of_unmoved knownNow (performAll_known knownNow failed) unmoved kinds

theorem performAll_sound (operations : List Operation) (id : ShapeId)
    (known : id < (performAll {} operations).shapes.length) :
    ((performAll {} operations).shape id).Sound id := by
  refine performAll_each Shape.Sound Shape.sound_new ?_ ?_ ?_ operations id known
  · exact fun _ _ _ _ sound becomes => sound.becomes becomes
  · exact fun _ _ _ _ sound added => sound.register added
  · intro place none
    exact absurd none (Nat.not_lt_zero place)

theorem known_of_root {registry : Registry} {kinds : KindTable} {id : ShapeId} {root : Tree}
    (made : (registry.environment kinds).root id = .ok root) : id < registry.shapes.length := by
  by_cases known : id < registry.shapes.length
  · exact known
  · simp only [environment, roots, List.getElem?_toArray, List.getElem?_mapIdx,
      List.getElem?_eq_none (Nat.le_of_not_lt known), Option.map_none, Option.getD_none] at made
    cases made

/-- The trees that a match comes upon are those that the fields of their shapes make. -/
theorem ruleTree_of_root {operations : List Operation} {kinds : KindTable} {id : ShapeId}
    {root : Tree} (made : ((performAll {} operations).environment kinds).root id = .ok root) :
    ∃ table, ((performAll {} operations).shape id).ruleTree id table = .ok root :=
  (performAll_sound operations id (known_of_root made)).rootWith (environment_root_ok made)

end Registry

namespace Word

def field : Field where
  name := "word"
  rule := "@Ident"

def start : Registry where
  shapes := [{ name := "Word" }]

/-- The tree is wanted with names that the rule does not know, then with names that it knows. A
record is made in between, and a field is registered too late. -/
def history : List Operation :=
  [.register 0 field, .compile 0 [], .fresh 0, .compile 0 .standard,
    .register 0 { field with name := "late" }, .compile 0 []]

set_option maxRecDepth 4000 in
theorem word_lifeCycle :
    ({} : Registry).addShape { name := "Word" } = .ok (start, 0) ∧
      (start.performAll [.register 0 field]).Fails 0 (.compile 0 []) ∧
      ((start.performAll history).shape 0).hasRecord = true ∧
      ((start.performAll history).shape 0).root =
        some (.leaf (.captureKind (some .identifier) "Ident" field)) ∧
      start.LifeCycle history 0 ((start.performAll history).shape 0) := by
  have added : ({} : Registry).addShape { name := "Word" } = .ok (start, 0) := rfl
  have failed : ((start.performAll [.register 0 field]).perform (.compile 0 [])).1 =
      .error (.rule
        { problem := .unknownKind "Ident" [], rule := "@Ident", field := "word",
          offset := some 1 }) := by
    cbv
  have closed : ((start.performAll history).shape 0).hasRecord = true := rfl
  have built : ((start.performAll history).shape 0).root =
      some (.leaf (.captureKind (some .identifier) "Ident" field)) := rfl
  exact ⟨added, .inl ⟨.compile [], _, failed⟩, closed, built,
    Registry.performAll_lifeCycle added history⟩

end Word

end RecordGrammar
