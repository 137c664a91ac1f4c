import RecordGrammar.ValueKind

namespace RecordGrammar

/-! Fields: the named parts of a shape, each with the rule that says how it is filled. -/

/-- Shapes are numbered in the order of their creation. -/
abbrev ShapeId := Nat

/-- A shape that a field refers to, by name or directly. A shape keeps its name for good, so a
direct reference carries it along. -/
inductive ShapeRef where
  | named (name : String)
  | shape (id : ShapeId) (name : String)
deriving DecidableEq, Repr

/-- The name of the shape that is referred to. -/
def ShapeRef.name : ShapeRef → String
  | .named name => name
  | .shape _ name => name

def ShapeRef.display : ShapeRef → String
  | .named name => Text.quote name
  | .shape _ name => "<Shape " ++ name ++ ">"

/-- A field: its name, its rule as written, the kind of value it holds and, if it holds records of
another shape, that shape. A field that holds many collects them in a list. -/
structure Field where
  name : String
  rule : String
  kind : ValueKind := .text
  element : Option ShapeRef := none
  many : Bool := false
deriving DecidableEq, Repr

/-- What a field holds as long as nothing is bound to it. -/
def Field.default (field : Field) : Value :=
  if field.many then .list []
  else if field.kind = .boolean then .bool false
  else .null

end RecordGrammar
