import RecordGrammar.Worked.Calculator
import RecordGrammar.Worked.Ini
import RecordGrammar.Worked.Json

namespace RecordGrammar.CommandLine

open RecordGrammar.Text

/-! The catalogue of shapes that can be named on the command line.

A shape is named by a module and an attribute with a colon between them. Modules are named by a
path of names with points between them; the modules inside of others are found on the way down.
-/

/-- What an attribute of a module is. Only a shape can be parsed into. -/
inductive Attribute where
  | shape (registry : Registry) (id : ShapeId)
  | other

/-- A module: its full name, whether it may have modules inside, and its attributes. -/
structure Module where
  name : String
  isPackage : Bool
  attributes : List (String × Attribute)

/-- Why a designation names no shape. -/
inductive DesignationError where
  | noColon (designation : String)
  | relativeModule (name : String)
  | emptyModule
  | noModule (name : String)
  | notAPackage (name outer : String)
  | noAttribute (moduleName part : String)
  | notAShape (designation : String)
deriving DecidableEq, Repr

def DesignationError.message : DesignationError → String
  | .noColon designation => "Shape must be named as MODULE:ATTRIBUTE, not " ++ quote designation
  | .relativeModule name =>
      "the 'package' argument is required to perform a relative import for " ++ quote name
  | .emptyModule => "Empty module name"
  | .noModule name => "No module named " ++ quote name
  | .notAPackage name outer =>
      "No module named " ++ quote name ++ "; " ++ quote outer ++ " is not a package"
  | .noAttribute moduleName part =>
      "module '" ++ moduleName ++ "' has no attribute '" ++ part ++ "'"
  | .notAShape designation => quote designation ++ " is not a Shape."

def others (names : List String) : List (String × Attribute) :=
  names.map fun name => (name, .other)

/-- The attributes that every module has, beside the members of every object. -/
def commonAttributes : List (String × Attribute) :=
  others (["__name__", "__doc__", "__file__", "__package__", "__loader__", "__spec__",
    "__annotations__"] ++ Member.ofObjects.filter (· != Member.home))

/-- The attributes of a module that is a file. -/
def fileAttributes : List (String × Attribute) :=
  commonAttributes ++ others ["__builtins__", "__cached__"]

def modules : List Module :=
  [{ name := "example"
     isPackage := true
     attributes := others ["__path__"] ++ commonAttributes },
   { name := "example.ini"
     isPackage := false
     attributes :=
       [("ini_file", .shape Worked.Ini.registry Worked.Ini.fileId)] ++
         others ["TokenKind", "RegexScanner", "Grammar", "ValueKind", "lexemes", "ini",
           "to_python"] ++ fileAttributes },
   { name := "example.json_value"
     isPackage := false
     attributes :=
       [("json_object", .shape Worked.Json.registry Worked.Json.objectId),
        ("pair", .shape Worked.Json.registry Worked.Json.pairId),
        ("json_value", .shape Worked.Json.registry Worked.Json.valueId)] ++
         others ["re", "TokenKind", "RegexScanner", "Grammar", "ValueKind", "parse_source",
           "lexemes", "escapes", "unquote", "json", "to_python", "parse"] ++ fileAttributes },
   { name := "example.expression"
     isPackage := false
     attributes :=
       [("expression", .shape Worked.Calculator.registry Worked.Calculator.expressionId)] ++
         others ["operator", "Grammar", "ValueKind", "Operator", "Expression", "calc"] ++
         fileAttributes }]

/-- The prefixes of a path of names that end before a point, and the path itself. -/
def pathsTo (name : List Char) : List String :=
  let ends := (List.range name.length).filter fun index => name[index]? == some '.'
  (ends.map fun index => String.ofList (name.take index)) ++ [String.ofList name]

def descend : Option Module → List String → Except DesignationError (Option Module)
  | outer, [] => .ok outer
  | outer, name :: rest =>
      match outer, modules.find? fun known => known.name == name with
      | some outer, found =>
          if !outer.isPackage then .error (.notAPackage name outer.name)
          else
            match found with
            | some found => descend (some found) rest
            | none => .error (.noModule name)
      | none, some found => descend (some found) rest
      | none, none => .error (.noModule name)

def findModule (name : String) : Except DesignationError Module :=
  if name.toList.head? == some '.' then .error (.relativeModule name)
  else if name == "" then .error .emptyModule
  else do
    match ← descend none (pathsTo name.toList) with
    | some found => return found
    | none => throw (.noModule name)

def findShape (designation : String) : Except DesignationError (Registry × ShapeId) := do
  let characters := designation.toList
  let name := characters.takeWhile (· != ':')
  match characters.drop name.length with
  | [] => throw (.noColon designation)
  | _ :: part =>
      let part := String.ofList part
      let found ← findModule (String.ofList name)
      match found.attributes.find? fun entry => entry.1 == part with
      | none => throw (.noAttribute found.name part)
      | some (_, .other) => throw (.notAShape designation)
      | some (_, .shape registry id) => return (registry, id)

end RecordGrammar.CommandLine
