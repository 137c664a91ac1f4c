import RecordGrammar.Fault
import RecordGrammar.Tree.Builder

namespace RecordGrammar

open RecordGrammar.Text

/-! Shapes: the types of the records that a parse makes.

A shape has a name and a list of fields, each with a rule. The fields are registered first. The
rules are compiled into a match tree the first time that somebody needs it, and from then on the
tree stays as it is. So do the fields once a record of the shape has been made.
-/

/-- Where a shape stands between the registration of its fields and the use of its tree. -/
inductive Phase where
  | pending
  | compiling
  | ready
deriving DecidableEq, Repr, Inhabited

/-- A shape. It may belong to a grammar and may have a scanner of its own, each given by number.
With a factory, its instances are objects that start with the factory's attributes; otherwise they
are records, and `hasRecord` says that their type exists, which closes the list of fields.
`tokens`, `root` and `resolved` belong to the compiled rules: the tokens of the rules, the match
tree, and the shapes that the references in the tree were found to mean, by their slot. -/
structure Shape where
  name : String
  grammar : Option Nat := none
  scanner : Option Nat := none
  factory : Option (List (String × Value)) := none
  fields : List Field := []
  phase : Phase := .pending
  tokens : List RuleToken := []
  root : Option Tree := none
  resolved : List (Nat × ShapeId) := []
  hasRecord : Bool := false

namespace Shape

variable (shape : Shape)

def display : String := "<Shape " ++ shape.name ++ ">"

/-- Registers a field. The field must be new, must have an identifier for its name and must come
before the first instance and the first use of the tree. A field with an element holds records
whatever was asked for, as long as that was nothing but text. -/
def register (field : Field) : Except FieldError Shape :=
  -- Where several complaints apply, the first one in this order is made.
  if shape.hasRecord then .error (.instancesExist field.name shape.name)
  else if !isIdentifier field.name then .error (.notAnIdentifier field.name)
  else if shape.fields.any (fun other => other.name == field.name) then
    .error (.alreadyRegistered field.name shape.name)
  else if field.element.isSome && field.kind != .text && field.kind != .nested then
    .error (.cannotHold field.name field.kind)
  else if field.element.isNone && field.many then .error (.needsElement field.name)
  else if shape.phase ≠ .pending then .error (.alreadyBuilt field.name shape.name)
  else
    let kept := if field.element.isSome then { field with kind := .nested } else field
    .ok { shape with fields := shape.fields ++ [kept] }

/-- What is said about a field that names an element shape and never refers to it. -/
def unusedElement (field : Field) : String :=
  "Field " ++ quote field.name ++ " of shape " ++ quote shape.name ++
    " names an element shape, but its rule " ++ quote field.rule ++ " never says '@@'."

/-- The warnings about some fields, of which the first has the given ordinal. They end at the first
rule that has no tokens because of a mistake. -/
def warningsFrom (ordinal : Nat) : List Field → List String
  | [] => []
  | field :: rest =>
      match RuleToken.lex field ordinal with
      | .error _ => []
      | .ok tokens =>
          let later := warningsFrom (ordinal + 1) rest
          if field.element.isSome && !RuleToken.mentionsReference tokens then
            shape.unusedElement field :: later
          else later

/-- What compiling a shape gives: the shape, compiled or as it was, the warnings, and the mistake
if there is one. -/
structure Compilation where
  shape : Shape
  warnings : List String := []
  error : Option RuleError := none

/-- Compiles the rules of a shape with the given number, unless that has been done. The names to
capture tokens by are those of the first success. After a mistake the shape is as it was, but for
the tokens if all rules have some. -/
def compile (id : ShapeId) (kinds : KindTable) : Compilation :=
  match shape.phase with
  | .ready => { shape }
  | .compiling =>
      { shape
        error := some { problem := .alreadyCompiling, rule := "", field := shape.name
                        offset := none } }
  | .pending =>
      let warnings := shape.warningsFrom 0 shape.fields
      match RuleToken.lexAll 0 shape.fields with
      | .error error => { shape, warnings, error := some error }
      | .ok tokens =>
          match Tree.build { kinds, owner := .shape id shape.name } tokens with
          | .error error => { shape := { shape with tokens }, warnings, error := some error }
          | .ok root =>
              -- The slots of an earlier tree mean nothing in this one.
              { shape := { shape with tokens, root := some root, resolved := [], phase := .ready }
                warnings }

/-- The tree of a shape, compiled now if need be. A shape that was declared ready by hand has
none. -/
def rootWith (id : ShapeId) (kinds : KindTable) : Except Fault Tree :=
  let compiled := shape.compile id kinds
  match compiled.error with
  | some error => .error (.rule error)
  | none =>
      match compiled.shape.root with
      | some root => .ok root
      | none => .error .noTree

/-- The shape that a slot of the tree was found to refer to. A tree that is yet to be compiled has
no such memory. -/
def resolved? (slot : Nat) : Option ShapeId :=
  if shape.phase = .ready then (shape.resolved.find? fun entry => entry.1 == slot).map (·.2)
  else none

/-- Remembers what a slot of the tree refers to. The first answer stays. -/
def remember (slot : Nat) (target : ShapeId) : Shape :=
  if shape.resolved.any (fun entry => entry.1 == slot) then shape
  else { shape with resolved := shape.resolved ++ [(slot, target)] }

end Shape

end RecordGrammar
