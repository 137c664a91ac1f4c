import RecordGrammar.Parse

namespace RecordGrammar.Worked.Calculator

/-! A small calculator: one operation on two numbers, perhaps in parentheses. Its instances are
objects, and its rule for operators begins in the first field and ends in the last. -/

/-- An operator: one flag for each operation. -/
def operation : Shape where
  name := "Operator"
  factory := some
    [("plus", .bool false), ("minus", .bool false), ("times", .bool false),
     ("divide", .bool false)]
  fields :=
    [{ name := "plus", rule := "@(\"+\"", kind := .boolean },
     { name := "minus", rule := "| \"-\"", kind := .boolean },
     { name := "times", rule := "| \"*\"", kind := .boolean },
     { name := "divide", rule := "| \"/\")", kind := .boolean }]

def expression : Shape where
  name := "Expression"
  factory := some
    [("left", .bool false), ("right", .bool false), ("first", .float 0), ("second", .float 0),
     ("op", .null)]
  fields :=
    [{ name := "left", rule := "(@'(')?", kind := .boolean },
     { name := "first", rule := "@Number", kind := .float },
     { name := "op", rule := "@@", kind := .nested, element := some (.named "Operator") },
     { name := "second", rule := "@Number", kind := .float },
     { name := "right", rule := "(@')')?", kind := .boolean }]

def registry : Registry := .ofGrammar "expression" .standard [operation, expression]

def expressionId : ShapeId := 1

def parse (text : List Char) : Registry.Report Value :=
  registry.parse { shape := expressionId } { content := text }

/-- Why an expression has no value. -/
inductive EvaluationError where
  | divisionByZero
  | incomplete
deriving DecidableEq, Repr

def flag (value : Value) (name : String) : Bool :=
  match value.attribute? name with
  | some (.bool set) => set
  | _ => false

def number? (value : Value) (name : String) : Option Float :=
  match value.attribute? name with
  | some (.float number) => some number
  | _ => none

def evaluate (value : Value) : Except EvaluationError Float :=
  match value.attribute? "op", number? value "first", number? value "second" with
  | some operation, some first, some second =>
      if flag operation "plus" then .ok (first + second)
      else if flag operation "minus" then .ok (first - second)
      else if flag operation "times" then .ok (first * second)
      else if flag operation "divide" then
        if second == 0 then .error .divisionByZero else .ok (first / second)
      else .error .incomplete
  | _, _, _ => .error .incomplete

end RecordGrammar.Worked.Calculator
