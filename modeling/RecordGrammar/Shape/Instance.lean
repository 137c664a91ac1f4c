import RecordGrammar.Shape.Basic

namespace RecordGrammar

/-! Instances of shapes: how records and objects are made.

A record is made in steps: its type, if that does not exist yet, then the record itself, and then
its first values, field by field. A field that has the name of a member which one of the steps
needs makes that step fail.
-/

namespace Shape

variable (shape : Shape)

/-- Whether a shape has a field with a name. -/
def hasField (name : String) : Bool := shape.fields.any fun field => field.name == name

/-- Whether a name is hidden in a type of the given name: the type stores a field whose name
starts, and does not end, with two underscores under another name, unless its own name is made of
underscores only. -/
def hides (typeName field : String) : Bool :=
  let mark := ['_', '_']
  mark.isPrefixOf field.toList && !mark.isSuffixOf field.toList && typeName.toList.any (· != '_')

/-- What keeps the type of the records from being made. -/
def typeError? : Option RecordError :=
  match (shape.fields.map (·.name)).find? Member.reserved.contains with
  | some field => some (.reservedName field)
  | none => if shape.name.toList.contains '\x00' then some .unusableTypeName else none

/-- The shape after an attempt to make an instance. The type of its records exists from then on,
if it can be made. -/
def close : Shape :=
  if shape.factory.isNone && shape.typeError?.isNone then { shape with hasRecord := true }
  else shape

/-- What keeps a record from being given its first values, as far as that does not depend on a
single field. The fields have no values yet, so a member whose place one of them has is missing. -/
def fillError? (given : List String) : Option Fault :=
  if shape.hasField Member.make then some (.member (.notCallable "member_descriptor"))
  else if shape.hasField Member.fillIn then some (.member (.absent Member.fillIn))
  else if given.contains Member.receiver then some (.record (.secondReceiver "Record"))
  else if shape.hasField Member.get then some (.member (.absent Member.get))
  else if shape.hasField Member.set then some (.member (.absent Member.set))
  else none

/-- The first value of a field of a record. -/
def store (field : String) (value : Value) : Except Fault (String × Value) :=
  if hides shape.name field || field == Member.home || field == Member.referrers then
    .error (.binding (.noAttribute field))
  else if field == Member.attributes then .error (.binding (.notAttributes value.typeName))
  else .ok (field, value)

/-- A record with values for some of its fields. Other fields hold nothing. -/
def record (id : ShapeId) (values : List (String × Value)) : Except Fault Value := do
  let attributes ← shape.fields.mapM fun field =>
    shape.store field.name ((Value.named? values field.name).getD .null)
  -- Names of no field are told last, and in alphabetical order.
  match (values.map (·.1)).filter (!shape.hasField ·) with
  | [] => return .entity (.record id) shape.name none attributes
  | unknown =>
      throw (.record (.unknownFields shape.name (unknown.mergeSort fun left right =>
        decide (left ≤ right))))

/-- An object with the attributes of its factory. -/
def object (attributes : List (String × Value)) : Except Fault Value :=
  (Binding.applyAll (attributes.map fun entry => .assign entry.1 entry.2)
    (.entity .factory shape.name none [])).mapError .binding

/-- Makes an instance with values for some of its fields. A factory takes no values. -/
def construct (id : ShapeId) (values : List (String × Value)) : Except Fault Value :=
  match shape.factory, values with
  | some attributes, [] => shape.object attributes
  | some _, (name, _) :: _ =>
      if name == Member.receiver then .error (.record (.secondReceiver shape.name))
      else .error (.record (.takesNoValues shape.name name))
  | none, values =>
      match shape.typeError?, shape.fillError? (values.map (·.1)) with
      | some error, _ => .error (.record error)
      | none, some fault => .error fault
      | none, none => shape.record id values

/-- Gives the default of a field to an instance where nothing is found under the field's name. -/
def fill (target : Value) (field : Field) : Except Fault Value :=
  if target.lacks field.name then
    (Binding.set target field.name field.default).mapError .binding
  else .ok target

/-- Makes an instance with the defaults of all fields that it does not fill by itself. -/
def fresh (id : ShapeId) : Except Fault Value := do
  shape.fields.foldlM fill (← shape.construct id [])

end Shape

end RecordGrammar
