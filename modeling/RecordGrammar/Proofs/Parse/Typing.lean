import RecordGrammar.Proofs.Parse.Effect
import RecordGrammar.Proofs.Registry.Meaning

namespace RecordGrammar

open RecordGrammar.Text

/-! Values that conform to the fields of their shapes.

A record conforms to its shape if it has the attributes of the shape's fields and no others, and
each of them holds what its field may hold. This is asked of every record that a value holds, at any
depth. A new record conforms, and bindings for the fields of its shape keep it so. They never
fail. -/

namespace Value

/-- A value itself and all that it holds, at any depth. -/
inductive Within : Value → Value → Prop
  | self (value : Value) : Within value value
  | item {inner : Value} (held : item ∈ items) (within : Within inner item) :
      Within inner (.list items)
  | attribute {inner : Value} (held : entry ∈ attributes) (within : Within inner entry.2) :
      Within inner (.entity origin name identity attributes)
  | entry {inner : Value} (held : entry ∈ entries) (within : Within inner entry.2) :
      Within inner (.dictionary entries)

def IsRecordOf (id : ShapeId) : Value → Prop
  | .entity (.record shape) _ _ _ => shape = id
  | _ => False

end Value

/-- A token that a match has passed if it stopped at an index. The mark of the end is never
taken. -/
def TokenStream.Taken (stream : TokenStream) (stop : Nat) (token : Token) : Prop :=
  ∃ index < stop, stream.token? index = some token ∧ token.isEnd = false

namespace Field

/-- The shape of the records that a field holds, given what names mean: that of its element, or else
the shape that the field belongs to. -/
def Element (named : String → ShapeId → Prop) (owner : ShapeId) (field : Field)
    (id : ShapeId) : Prop :=
  match field.element with
  | none => id = owner
  | some target => target.Means named id

/-- What a field may hold, given which shapes its element may mean and which tokens were taken. -/
inductive Holds (element : ShapeId → Prop) (taken : Token → Prop) (field : Field) : Value → Prop
  | records (many : field.many = true)
      (each : ∀ item ∈ items, ∃ id, element id ∧ item.IsRecordOf id) :
      Holds element taken field (.list items)
  | unbound (single : field.many = false) : Holds element taken field field.default
  | text (single : field.many = false) (token : Token) (passed : taken token)
      (coerced : field.kind.coerce token.text token.kind = .ok value) :
      Holds element taken field value
  | record (single : field.many = false) (refers : field.Refers) (id : ShapeId) (means : element id)
      (record : value.IsRecordOf id) : Holds element taken field value

theorem Holds.list_of_many {element : ShapeId → Prop} {taken : Token → Prop} {field : Field}
    {value : Value} (holds : field.Holds element taken value) (many : field.many = true) :
    ∃ items, value = .list items ∧ ∀ item ∈ items, ∃ id, element id ∧ item.IsRecordOf id := by
  cases holds with
  | records _ each => exact ⟨_, rfl, each⟩
  | unbound single | text single _ _ _ | record single _ _ _ _ => cases many.symm.trans single

theorem holds_default (element : ShapeId → Prop) (taken : Token → Prop) (field : Field) :
    field.Holds element taken field.default := by
  cases many : field.many with
  | false => exact .unbound many
  | true =>
      rw [Field.default, if_pos many]
      exact .records many (by simp)

theorem element_of_means {named : String → ShapeId → Prop} {owner id : ShapeId} {field : Field}
    {name : String} (means : (field.element.getD (.shape owner name)).Means named id) :
    field.Element named owner id := by
  unfold Element
  cases element : field.element with
  | none =>
      rw [element] at means
      exact means
  | some target =>
      rw [element] at means
      exact means

end Field

theorem Shape.WellFormed.named?_fields {shape : Shape} (wellFormed : shape.WellFormed)
    (value : Field → Value) {field : Field} (here : field ∈ shape.fields) :
    Value.named? (shape.fields.map fun field => (field.name, value field)) field.name =
      some (value field) := by
  rw [Value.named?, List.find?_map, Option.map_map]
  cases found : shape.fields.find?
    ((fun entry => entry.1 == field.name) ∘ fun field => (field.name, value field)) with
  | none =>
      have apart := List.find?_eq_none.mp found field here
      simp at apart
  | some other =>
      have same : other.name = field.name := by simpa using List.find?_some found
      rw [wellFormed.eq_of_name (List.mem_of_find?_eq_some found) here same]
      rfl

section Defaults

variable {entries later : List (String × Value)} {name : String}

theorem Value.named?_append (absent : name ∉ entries.map (·.1)) (held : Value) :
    named? (entries ++ (name, held) :: later) name = some held := by
  have none : entries.find? (fun entry => entry.1 == name) = none := by
    apply List.find?_eq_none.mpr
    intro entry inside same
    exact absent (List.mem_map.mpr ⟨entry, inside, beq_iff_eq.mp same⟩)
  simp [named?, List.find?_append, none]

theorem Binding.put_append (absent : name ∉ entries.map (·.1)) (held value : Value) :
    put (entries ++ (name, held) :: later) name value = entries ++ (name, value) :: later := by
  induction entries with
  | nil => simp [put]
  | cons entry rest ih =>
      rw [List.map_cons, List.mem_cons, not_or] at absent
      simp [put, Ne.symm absent.1, ih absent.2]

theorem Shape.fill_append (origin : ShapeId) (typeName : String) {field : Field}
    (absent : field.name ∉ entries.map (·.1)) :
    fill (.entity (.record origin) typeName none (entries ++ (field.name, .null) :: later)) field =
      .ok (.entity (.record origin) typeName none
        (entries ++ (field.name, field.default) :: later)) := by
  have lacks : (Value.entity (.record origin) typeName none
      (entries ++ (field.name, .null) :: later)).lacks field.name = true := by
    simp only [Value.lacks, Value.attribute?, Value.named?_append absent, Value.isNull]
  simp only [fill, lacks, if_true]
  rw [Value.set_record (by simp), Binding.put_append absent]
  rfl

/-- Filling a record field by field, as far as its fields hold nothing yet. -/
theorem Shape.foldlM_fill (origin : ShapeId) (typeName : String) {filled rest : List Field}
    (distinct : ((filled ++ rest).map (·.name)).Nodup) :
    rest.foldlM fill (.entity (.record origin) typeName none
        ((filled.map fun field => (field.name, field.default)) ++ rest.map fun field =>
          (field.name, .null))) =
      .ok (.entity (.record origin) typeName none
        ((filled ++ rest).map fun field => (field.name, field.default))) := by
  -- The fields that are filled stand in front of those that hold nothing yet.
  induction rest generalizing filled with
  | nil => simp [pure, Except.pure]
  | cons field rest ih =>
      have absent :
          field.name ∉ (filled.map fun field => (field.name, field.default)).map (·.1) := by
        rw [List.map_append, List.map_cons, List.nodup_append] at distinct
        intro inside
        rw [List.map_map] at inside
        exact distinct.2.2 _ inside _ List.mem_cons_self rfl
      have distinct : ((filled ++ [field] ++ rest).map (·.name)).Nodup := by simpa using distinct
      rw [List.map_cons, List.foldlM_cons, fill_append origin typeName absent]
      simpa [bind, Except.bind] using ih distinct

/-- A new record holds the defaults of its fields. -/
theorem Shape.fresh_ok {shape : Shape} {id : ShapeId} {value : Value}
    (generated : shape.factory = none) (wellFormed : shape.WellFormed)
    (made : shape.fresh id = .ok value) :
    value = .entity (.record id) shape.name none
      (shape.fields.map fun field => (field.name, field.default)) := by
  obtain ⟨blank, constructed, filled⟩ := Tree.bind_eq_ok made
  rw [construct_ok generated constructed] at filled
  have distinct : (([] ++ shape.fields).map Field.name).Nodup := wellFormed.distinct
  have defaults := foldlM_fill id shape.name distinct
  exact Except.ok.inj (filled.symm.trans defaults)

end Defaults

/-- Attributes that go with the fields of a shape, one for each. -/
structure Shape.Describes (shape : Shape) (named : String → ShapeId → Prop) (taken : Token → Prop)
    (id : ShapeId) (name : String) (attributes : List (String × Value)) : Prop where
  name : name = shape.name
  fields : attributes.map (·.1) = shape.fields.map (·.name)
  holds : ∀ field ∈ shape.fields, ∃ value, Value.named? attributes field.name = some value ∧
    field.Holds (field.Element named id) taken value

namespace Registry

/-- A record goes with its shape, which is registered. There are no objects. -/
def Describes (registry : Registry) (named : ShapeId → String → ShapeId → Prop)
    (taken : Token → Prop) :
    Value → Prop
  | .entity (.record id) name _ attributes =>
      id < registry.shapes.length ∧
        (registry.shape id).Describes (named id) taken id name attributes
  | .entity .factory _ _ _ => False
  | _ => True

/-- All that a value holds goes with its shape. -/
def Conforms (registry : Registry) (named : ShapeId → String → ShapeId → Prop)
    (taken : Token → Prop) (value : Value) : Prop :=
  ∀ inner, inner.Within value → registry.Describes named taken inner

section Conforms

variable {registry : Registry} {named : ShapeId → String → ShapeId → Prop} {taken : Token → Prop}

theorem Conforms.list {items : List Value}
    (each : ∀ item ∈ items, registry.Conforms named taken item) :
    registry.Conforms named taken (.list items) := by
  intro inner within
  cases within with
  | self => trivial
  | item held within => exact each _ held inner within

theorem Conforms.items {items : List Value}
    (conforms : registry.Conforms named taken (.list items)) :
    ∀ item ∈ items, registry.Conforms named taken item :=
  fun _ held inner within => conforms inner (.item held within)

theorem Conforms.entity {origin : Origin} {name : String} {identity : Option Nat}
    {attributes : List (String × Value)}
    (described : registry.Describes named taken (.entity origin name identity attributes))
    (each : ∀ entry ∈ attributes, registry.Conforms named taken entry.2) :
    registry.Conforms named taken (.entity origin name identity attributes) := by
  intro inner within
  cases within with
  | self => exact described
  | «attribute» held within => exact each _ held inner within

theorem Conforms.attributes {origin : Origin} {name : String} {identity : Option Nat}
    {attributes : List (String × Value)}
    (conforms : registry.Conforms named taken (.entity origin name identity attributes)) :
    ∀ entry ∈ attributes, registry.Conforms named taken entry.2 :=
  fun _ held inner within => conforms inner (.attribute held within)

theorem conforms_of_coerce {kind : ValueKind} {text : Wording} {tokenKind : Option TokenKind}
    {value : Value} (coerced : kind.coerce text tokenKind = .ok value) :
    registry.Conforms named taken value := by
  have integer {value : Value} (read : ValueKind.toInteger text = .ok value) :
      registry.Conforms named taken value := by
    unfold ValueKind.toInteger at read
    split at read <;> cases read
    rintro inner ⟨⟩
    trivial
  have decimal {value : Value} (read : ValueKind.toFloat text = .ok value) :
      registry.Conforms named taken value := by
    unfold ValueKind.toFloat at read
    split at read <;> cases read
    rintro inner ⟨⟩
    trivial
  have plain : registry.Conforms named taken (.text text) := by
    rintro inner ⟨⟩
    trivial
  cases kind with
  | text =>
      cases coerced
      exact plain
  | integer => exact integer coerced
  | float => exact decimal coerced
  | boolean =>
      cases coerced
      rintro inner ⟨⟩
      trivial
  | scalar =>
      simp only [ValueKind.coerce, ValueKind.toScalar] at coerced
      split at coerced
      · cases coerced
        exact plain
      · split at coerced
        · exact integer coerced
        · split at coerced
          · exact decimal coerced
          · cases coerced
            exact plain
  | nested => cases coerced

theorem conforms_default (field : Field) : registry.Conforms named taken field.default := by
  unfold Field.default
  split
  · exact .list (by simp)
  · split <;>
    · rintro inner ⟨⟩
      trivial

/-- A record of a certain shape that conforms, with all that it holds. -/
structure OfShape (registry : Registry) (named : ShapeId → String → ShapeId → Prop)
    (taken : Token → Prop) (id : ShapeId) (value : Value) : Prop where
  record : value.IsRecordOf id
  conforms : registry.Conforms named taken value

theorem OfShape.cases {id : ShapeId} {value : Value}
    (whole : registry.OfShape named taken id value) :
    ∃ name identity attributes, value = .entity (.record id) name identity attributes ∧
      id < registry.shapes.length ∧
      (registry.shape id).Describes (named id) taken id name attributes := by
  obtain ⟨record, conforms⟩ := whole
  have described := conforms value (.self value)
  cases value with
  | entity origin name identity attributes =>
      cases origin with
      | record shape =>
          cases record
          exact ⟨name, identity, attributes, rfl, described⟩
      | factory => exact record.elim
  | _ => exact record.elim

theorem ofShape_defaults {id : ShapeId} (known : id < registry.shapes.length)
    (wellFormed : (registry.shape id).WellFormed) :
    registry.OfShape named taken id (.entity (.record id) (registry.shape id).name none
      ((registry.shape id).fields.map fun field => (field.name, field.default))) := by
  refine ⟨rfl, .entity ⟨known, rfl, by rw [List.map_map]; rfl, ?_⟩ ?_⟩
  · intro field here
    exact ⟨field.default, wellFormed.named?_fields Field.default here, field.holds_default _ _⟩
  · intro entry held
    obtain ⟨field, _, rfl⟩ := List.mem_map.mp held
    exact conforms_default field

/-- A binding for a field of a shape, of what the field may hold. -/
inductive Proper (registry : Registry) (named : ShapeId → String → ShapeId → Prop)
    (taken : Token → Prop) (id : ShapeId) : Binding → Prop
  | assign (here : field ∈ (registry.shape id).fields) (single : field.many = false)
      (holds : field.Holds (field.Element (named id) id) taken value)
      (conforms : registry.Conforms named taken value) :
      Proper registry named taken id (.assign field.name value)
  | append (here : field ∈ (registry.shape id).fields) (many : field.many = true)
      (means : field.Element (named id) id other)
      (whole : registry.OfShape named taken other item) :
      Proper registry named taken id (.append field.name item)

variable {id : ShapeId} {target : Value} {binding : Binding} {bindings : List Binding}

theorem mem_put {entries : List (String × Value)} {name : String} {value : Value}
    {entry : String × Value} (held : entry ∈ Binding.put entries name value) :
    entry = (name, value) ∨ entry ∈ entries := by
  induction entries with
  | nil => exact .inl (List.mem_singleton.mp held)
  | cons first rest ih =>
      rw [Binding.put] at held
      split at held
      · rcases List.mem_cons.mp held with here | later
        · exact .inl here
        · exact .inr (List.mem_cons_of_mem first later)
      · rcases List.mem_cons.mp held with here | later
        · exact .inr (here ▸ List.mem_cons_self)
        · exact (ih later).imp_right (List.mem_cons_of_mem first)

theorem OfShape.set (whole : registry.OfShape named taken id target)
    (wellFormed : (registry.shape id).WellFormed) {field : Field} {value : Value}
    (here : field ∈ (registry.shape id).fields)
    (holds : field.Holds (field.Element (named id) id) taken value)
    (conforms : registry.Conforms named taken value) :
    ∃ next, Binding.set target field.name value = .ok next ∧
      registry.OfShape named taken id next := by
  obtain ⟨name, identity, attributes, rfl, known, described⟩ := whole.cases
  have present : field.name ∈ attributes.map (·.1) := by
    rw [described.fields]
    exact List.mem_map_of_mem here
  refine ⟨_, Value.set_record present value, rfl, .entity ⟨known, described.name, ?_, ?_⟩ ?_⟩
  · rw [Value.map_put attributes field.name value present, described.fields]
  · intro other there
    rw [Value.named?_put]
    by_cases same : other.name = field.name
    · rw [if_pos same, wellFormed.eq_of_name there here same]
      exact ⟨value, rfl, holds⟩
    · rw [if_neg same]
      exact described.holds other there
  · intro entry held
    rcases mem_put held with rfl | before
    · exact conforms
    · exact whole.conforms.attributes entry before

/-- An attribute of a field that holds many is a list of records. -/
theorem OfShape.list_of_many (whole : registry.OfShape named taken id target) {field : Field}
    (here : field ∈ (registry.shape id).fields) (many : field.many = true) :
    ∃ items, target.attribute? field.name = some (.list items) ∧
      (∀ item ∈ items, ∃ other, field.Element (named id) id other ∧ item.IsRecordOf other) ∧
      registry.Conforms named taken (.list items) := by
  obtain ⟨name, identity, attributes, rfl, _, described⟩ := whole.cases
  obtain ⟨value, held, holds⟩ := described.holds field here
  obtain ⟨items, rfl, each⟩ := holds.list_of_many many
  refine ⟨items, held, each, ?_⟩
  obtain ⟨entry, found, same⟩ := Option.map_eq_some_iff.mp held
  exact same ▸ whole.conforms.attributes entry (List.mem_of_find?_eq_some found)

theorem OfShape.apply (whole : registry.OfShape named taken id target)
    (wellFormed : (registry.shape id).WellFormed)
    (proper : registry.Proper named taken id binding) :
    ∃ next, binding.apply target = .ok next ∧ registry.OfShape named taken id next := by
  cases proper with
  | assign here single holds conforms => exact whole.set wellFormed here holds conforms
  | @append field other item here many means added =>
      obtain ⟨items, held, each, conforms⟩ := whole.list_of_many here many
      rw [Binding.apply_append_of_list held]
      apply whole.set wellFormed here
      · refine .records many (List.forall_mem_append.mpr ⟨each, ?_⟩)
        exact List.forall_mem_singleton.mpr ⟨other, means, added.record⟩
      · exact .list (List.forall_mem_append.mpr
          ⟨conforms.items, List.forall_mem_singleton.mpr added.conforms⟩)

theorem OfShape.applyAll (whole : registry.OfShape named taken id target)
    (wellFormed : (registry.shape id).WellFormed)
    (proper : ∀ binding ∈ bindings, registry.Proper named taken id binding) :
    ∃ filled, Binding.applyAll bindings target = .ok filled ∧
      registry.OfShape named taken id filled := by
  induction bindings generalizing target with
  | nil => exact ⟨target, rfl, whole⟩
  | cons binding rest ih =>
      obtain ⟨first, later⟩ := List.forall_mem_cons.mp proper
      obtain ⟨next, applied, whole⟩ := whole.apply wellFormed first
      rw [Binding.applyAll_cons rest applied]
      exact ih whole later

end Conforms

end Registry

end RecordGrammar
