import RecordGrammar.Proofs.Appended
import RecordGrammar.Registry

namespace RecordGrammar

open RecordGrammar.Text

/-! What is registered, before anything is parsed.

Scanners, grammars and shapes are added one by one, and shapes are given their fields. What holds of
every new shape and is kept when a field is registered holds of every registered shape. -/

def KindTable.Distinct (table : KindTable) : Prop := (table.map (·.1)).Nodup

namespace Registry

/-- One step of a registration. A new shape has no fields and no tree. -/
inductive Registers : Registry → Registry → Prop
  | scanner (scanner : Scanner) (distinct : scanner.kinds.Distinct) :
      Registers registry (registry.addScanner scanner).1
  | scanRule (id : Nat) (rule : ScanRule) (added : registry.addScanRule id rule = .ok other) :
      Registers registry other
  | grammar (name : String) (scanner parent : Option Nat) :
      Registers registry (registry.addGrammar name scanner parent).1
  | shape (id : ShapeId) (name : String) (grammar scanner : Option Nat)
      (factory : Option (List (String × Value)))
      (added : registry.addShape { name, grammar, scanner, factory } = .ok (other, id)) :
      Registers registry other
  | field (id : ShapeId) (field : Field) (added : registry.register id field = .ok other) :
      Registers registry other

/-- What has been registered from nothing. -/
inductive Registered : Registry → Prop
  | nothing : Registered {}
  | more (before : Registered registry) (registers : Registers registry other) : Registered other

/-- A property of every shape, known or not. -/
def EachShape (holds : Shape → Prop) (registry : Registry) : Prop := ∀ id, holds (registry.shape id)

def EachScanner (holds : Scanner → Prop) (registry : Registry) : Prop :=
  ∀ id, holds (registry.scanner id)

section Lookup

variable {registry other : Registry} {holds : Shape → Prop} {held : Scanner → Prop}

theorem shape_setShape (registry : Registry) (id : ShapeId) (shape : Shape) (place : ShapeId) :
    (registry.setShape id shape).shape place =
      if id = place ∧ id < registry.shapes.length then shape else registry.shape place := by
  simp only [Registry.shape, setShape, List.getElem?_set]
  by_cases here : id = place
  · by_cases known : id < registry.shapes.length
    · simp [here, here ▸ known]
    · simp [here, here ▸ known]
  · simp [here]

theorem EachShape.setShape (each : registry.EachShape holds) (id : ShapeId) {shape : Shape}
    (now : holds shape) :
    (registry.setShape id shape).EachShape holds := by
  intro place
  rw [shape_setShape]
  split
  · exact now
  · exact each place

theorem scanner_append (registry : Registry) (entry : ScannerEntry) (id : Nat) :
    ({ registry with scanners := registry.scanners ++ [entry] } : Registry).scanner id =
      if id = registry.scanners.length then entry.scanner else registry.scanner id := by
  simp only [Registry.scanner, getElem?_append_one]
  split <;> rfl

theorem EachScanner.addScanner (each : registry.EachScanner held) {scanner : Scanner}
    (now : held scanner) :
    (registry.addScanner scanner).1.EachScanner held := by
  intro id
  rw [Registry.addScanner, scanner_append]
  split
  · exact now
  · exact each id

theorem EachScanner.addScanRule (each : registry.EachScanner held) {id : Nat} {rule : ScanRule}
    (kept : ∀ scanner next, held scanner → scanner.addRule rule = .ok next → held next)
    (added : registry.addScanRule id rule = .ok other) : other.EachScanner held := by
  cases ruled : (registry.scanner id).addRule rule with
  | error error => simp [Registry.addScanRule, ruled, Except.map] at added
  | ok scanner =>
      simp only [Registry.addScanRule, ruled, Except.map, Except.ok.injEq] at added
      subst added
      intro place
      simp only [Registry.scanner, List.getElem?_modify]
      by_cases here : id = place
      · cases found : registry.scanners[place]? with
        | none => simpa [here, found, Registry.scanner] using each place
        | some entry => simpa [here, found] using kept _ _ (each id) ruled
      · simpa [here, Registry.scanner] using each place

theorem shape_append (registry : Registry) (scopes : Scopes String ShapeId) (shape : Shape)
    (id : ShapeId) :
    ({ registry with shapes := registry.shapes ++ [shape], scopes } : Registry).shape id =
      if id = registry.shapes.length then shape else registry.shape id := by
  simp only [Registry.shape, getElem?_append_one]
  split <;> rfl

theorem addShape_ok {shape : Shape} {id : ShapeId}
    (added : registry.addShape shape = .ok (other, id)) :
    id = registry.shapes.length ∧
      ∃ scopes, other = { registry with shapes := registry.shapes ++ [shape], scopes } := by
  unfold addShape at added
  simp only at added
  split at added
  · cases added
    exact ⟨rfl, _, rfl⟩
  · rename_i grammar _
    cases defined : registry.scopes.define grammar.scope shape.name registry.shapes.length with
    | error error => simp [defined, Except.map] at added
    | ok scopes =>
        simp only [defined, Except.map, Except.ok.injEq, Prod.mk.injEq] at added
        obtain ⟨rfl, rfl⟩ := added
        exact ⟨rfl, _, rfl⟩

end Lookup

section Registered

variable {registry other : Registry} {holds : Shape → Prop} {held : Scanner → Prop}

theorem Registers.eachShape (registers : Registers registry other)
    (blank : ∀ name grammar scanner factory, holds { name, grammar, scanner, factory })
    (kept : ∀ shape next field, holds shape → shape.register field = .ok next → holds next)
    (each : registry.EachShape holds) : other.EachShape holds := by
  cases registers with
  | scanner scanner distinct => exact each
  | scanRule id rule added =>
      cases ruled : (registry.scanner id).addRule rule with
      | error error => simp [addScanRule, ruled, Except.map] at added
      | ok scanner =>
          simp only [addScanRule, ruled, Except.map, Except.ok.injEq] at added
          subst added
          exact each
  | grammar name scanner parent =>
      intro id
      unfold addGrammar
      cases scanner <;> cases parent.bind (registry.grammars[·]?) <;> exact each id
  | shape id name grammar scanner factory added =>
      obtain ⟨_, scopes, rfl⟩ := addShape_ok added
      intro place
      rw [shape_append]
      split
      · exact blank name grammar scanner factory
      · exact each place
  | field id field added =>
      cases accepted : (registry.shape id).register field with
      | error error => simp [register, accepted, Except.map] at added
      | ok shape =>
          simp only [register, accepted, Except.map, Except.ok.injEq] at added
          subst added
          exact each.setShape id (kept _ _ _ (each id) accepted)

theorem Registers.eachScanner (registers : Registers registry other)
    (standard : held .standard)
    (distinct : ∀ scanner : Scanner, scanner.kinds.Distinct → held scanner)
    (kept : ∀ scanner rule next, held scanner → scanner.addRule rule = .ok next → held next)
    (each : registry.EachScanner held) : other.EachScanner held := by
  cases registers with
  | scanner scanner named => exact each.addScanner (distinct scanner named)
  | scanRule id rule added =>
      exact each.addScanRule (fun scanner next => kept scanner rule next) added
  | grammar name scanner parent =>
      unfold addGrammar
      cases scanner with
      | some scanner => exact each
      | none =>
          cases parent.bind (registry.grammars[·]?) with
          | some outer => exact each
          | none => exact each.addScanner standard
  | shape id name grammar scanner factory added =>
      obtain ⟨_, scopes, rfl⟩ := addShape_ok added
      exact each
  | field id field added =>
      cases accepted : (registry.shape id).register field with
      | error error => simp [register, accepted, Except.map] at added
      | ok shape =>
          simp only [register, accepted, Except.map, Except.ok.injEq] at added
          subst added
          exact each

theorem Registered.eachShape (registered : Registered registry)
    (blank : ∀ name grammar scanner factory, holds { name, grammar, scanner, factory })
    (kept : ∀ shape next field, holds shape → shape.register field = .ok next → holds next) :
    registry.EachShape holds := by
  induction registered with
  | nothing => exact fun _ => blank "" none none none
  | more _ registers ih => exact registers.eachShape blank kept ih

end Registered

end Registry

theorem KindTable.distinct_standard : standard.Distinct := by
  unfold Distinct
  decide

/-- A rule is added to a scanner only under a new name. -/
theorem Scanner.distinct_addRule {scanner next : Scanner} {rule : ScanRule}
    (distinct : scanner.kinds.Distinct) (added : scanner.addRule rule = .ok next) :
    next.kinds.Distinct := by
  unfold addRule at added
  split at added
  · cases added
    exact distinct
  · rename_i name _ _
    split at added
    · cases added
    · rename_i unknown
      cases added
      have fresh : name ∉ scanner.kinds.map (·.1) := by
        simpa [KindTable.knows, List.any_eq_true] using unknown
      simp only [KindTable.Distinct, List.map_append, List.map_cons, List.map_nil,
        List.nodup_append]
      refine ⟨distinct, by simp, ?_⟩
      rintro known inside other last rfl
      exact fresh (List.mem_singleton.mp last ▸ inside)
  · cases added

/-- A field as a shape keeps it: one with an element holds records. -/
def Field.kept (field : Field) : Field :=
  if field.element.isSome then { field with kind := .nested } else field

theorem Field.kept_name (field : Field) : field.kept.name = field.name := by
  unfold kept
  split <;> rfl

theorem Field.kept_element (field : Field) : field.kept.element = field.element := by
  unfold kept
  split <;> rfl

theorem Field.kept_many (field : Field) : field.kept.many = field.many := by
  unfold kept
  split <;> rfl

/-- What a field has passed once it is registered, and where its shape stood. -/
theorem Shape.register_ok {shape next : Shape} {field : Field}
    (added : shape.register field = .ok next) :
    shape.hasRecord = false ∧ shape.phase = .pending ∧ isIdentifier field.name = true ∧
      field.name ∉ shape.fields.map (·.name) ∧ (field.many = true → field.element.isSome = true) ∧
      next = { shape with fields := shape.fields ++ [field.kept] } := by
  unfold register at added
  iterate 6
    split at added
    · cases added
  rename_i opened named unknown holds collects pending
  cases added
  refine ⟨by simpa using opened, Decidable.not_not.mp pending, by simpa using named, ?_, ?_, rfl⟩
  · intro listed
    obtain ⟨other, inside, same⟩ := List.mem_map.mp listed
    exact unknown (List.any_eq_true.mpr ⟨other, inside, beq_iff_eq.mpr same⟩)
  · intro many
    cases element : field.element with
    | none => simp [element, many] at collects
    | some target => rfl

/-- The fields of a shape go together: they are told apart by identifiers, those that hold records
of other shapes know it, and those that hold many have an element. -/
structure Shape.WellFormed (shape : Shape) : Prop where
  distinct : (shape.fields.map (·.name)).Nodup
  named : ∀ field ∈ shape.fields, isIdentifier field.name = true
  nested : ∀ field ∈ shape.fields, field.element.isSome = true → field.kind = .nested
  collects : ∀ field ∈ shape.fields, field.many = true → field.element.isSome = true

theorem Shape.WellFormed.register {shape next : Shape} {field : Field}
    (wellFormed : shape.WellFormed) (added : shape.register field = .ok next) :
    next.WellFormed := by
  obtain ⟨_, _, named, unknown, collects, rfl⟩ := register_ok added
  have each {holds : Field → Prop} (before : ∀ other ∈ shape.fields, holds other)
      (now : holds field.kept) :
      ∀ other ∈ shape.fields ++ [field.kept], holds other := by
    intro other inside
    rcases List.mem_append.mp inside with old | last
    · exact before other old
    · rw [List.mem_singleton.mp last]
      exact now
  constructor
  · rw [List.map_append, List.map_singleton, field.kept_name, List.nodup_append]
    refine ⟨wellFormed.distinct, List.pairwise_singleton _ _, ?_⟩
    intro known inside other last same
    rw [same, List.mem_singleton.mp last] at inside
    exact unknown inside
  · exact each wellFormed.named (by rwa [field.kept_name])
  · refine each wellFormed.nested ?_
    intro element
    rw [field.kept_element] at element
    simp only [Field.kept, element, if_true]
  · refine each wellFormed.collects ?_
    rw [field.kept_many, field.kept_element]
    exact collects

/-- Fields are registered before the tree of their shape is built. -/
theorem Shape.pending_register {shape next : Shape} {field : Field}
    (added : shape.register field = .ok next) :
    next.phase = .pending ∧ next.root = shape.root := by
  obtain ⟨_, pending, _, _, _, rfl⟩ := register_ok added
  exact ⟨pending, rfl⟩

namespace Registry

theorem Registered.distinct {registry : Registry} (registered : Registered registry) :
    registry.EachScanner fun scanner => scanner.kinds.Distinct := by
  induction registered with
  | nothing => exact fun _ => KindTable.distinct_standard
  | more _ registers ih =>
      exact registers.eachScanner KindTable.distinct_standard (fun _ named => named)
        (fun _ _ _ distinct added => Scanner.distinct_addRule distinct added) ih

/-- Registering compiles nothing. -/
theorem Registered.pending {registry : Registry} (registered : Registered registry) :
    registry.EachShape fun shape => shape.phase = .pending :=
  registered.eachShape (fun _ _ _ _ => rfl) (fun _ _ _ _ added => (Shape.pending_register added).1)

end Registry

end RecordGrammar
