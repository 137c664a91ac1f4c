import RecordGrammar.Match.Binding
import RecordGrammar.Match.Cursor
import RecordGrammar.Rule.Error
import RecordGrammar.Rule.Field
import RecordGrammar.Scanner.Basic
import RecordGrammar.Scope
import RecordGrammar.Source.Lines

namespace RecordGrammar

open RecordGrammar.Text

/-! Faults: whatever keeps an operation from giving its result.

A mismatch on the way is no fault, because another branch may still match. Only when nothing
matches does it become one.
-/

/-- A text that does not match. The position is that of the furthest failure, because there the
mistake generally is. -/
structure ParseFailure where
  position : Option Position
  token : Option Token
  what : String
deriving DecidableEq, Repr

def ParseFailure.message (failure : ParseFailure) : String :=
  match failure.position with
  | none => failure.what
  | some position => failure.what ++ " at " ++ position.describe

inductive FieldError where
  | instancesExist (field shape : String)
  | notAnIdentifier (field : String)
  | alreadyRegistered (field shape : String)
  | cannotHold (field : String) (kind : ValueKind)
  | needsElement (field : String)
  | alreadyBuilt (field shape : String)
deriving DecidableEq, Repr

def FieldError.message : FieldError → String
  | .instancesExist field shape =>
      "Cannot register field " ++ quote field ++ ": instances of " ++ quote shape ++
        " already exist."
  | .notAnIdentifier field => "Field name " ++ quote field ++ " is not an identifier."
  | .alreadyRegistered field shape =>
      "Shape " ++ quote shape ++ " already has a field named " ++ quote field ++ "."
  | .cannotHold field kind =>
      "Field " ++ quote field ++ " names an element shape, so it cannot hold " ++ kind.word ++
        " values."
  | .needsElement field =>
      "Field " ++ quote field ++ " collects many items, so it needs an element shape."
  | .alreadyBuilt field shape =>
      "Cannot register field " ++ quote field ++ ": the grammar for " ++ quote shape ++
        " is already built."

/-- Why an entity is not made. A field may have a name by which the type keeps its fields, the
type may have a name that no type can have, and a value may be given where none is taken. -/
inductive RecordError where
  | reservedName (field : String)
  | unusableTypeName
  | secondReceiver (typeName : String)
  | unknownFields (shape : String) (fields : List String)
  | takesNoValues (name field : String)
deriving DecidableEq, Repr

def RecordError.message : RecordError → String
  | .reservedName field => quote field ++ " in __slots__ conflicts with class variable"
  | .unusableTypeName => "type name must not contain null characters"
  | .secondReceiver typeName =>
      typeName ++ "." ++ Member.fillIn ++ "() got multiple values for argument " ++
        quote Member.receiver
  | .unknownFields shape fields =>
      shape ++ " has no field(s) named " ++ ", ".intercalate fields
  | .takesNoValues name field =>
      name ++ "." ++ Member.fillIn ++ "() got an unexpected keyword argument " ++ quote field

/-- Whatever keeps an operation from giving its result. -/
inductive Fault where
  | rule (error : RuleError)
  | scope (error : ScopeError String)
  | scan (error : ScanError)
  | scanRule (error : ScanRuleError)
  | endlessStream
  | cursor (error : CursorError)
  | binding (error : BindingError)
  | noMatch (failure : ParseFailure)
  | lines (error : Source.LineError)
  | field (error : FieldError)
  | record (error : RecordError)
  | member (error : MemberError)
  | noTree
  | noToken
  | exhausted
deriving DecidableEq, Repr

def ScanRuleError.message : ScanRuleError → String
  | .alreadyDefined name => "Scan rule " ++ quote name ++ " is already defined."
  | .noTable => "the scanner goes by no rules"

def ScopeError.message : ScopeError String → String
  | .missing name place | .alreadyDefined name place =>
      "(" ++ quote name ++ ", " ++ quoteOption place ++ ")"

def Fault.message : Fault → String
  | .rule error => error.message
  | .scope error => error.message
  | .scan (.blocked blocked) => blocked.message
  | .scan .outOfRange => "string index out of range"
  | .scan .outOfReach => "offset out of reach"
  | .scanRule error => error.message
  | .endlessStream => "A token stream must end with an EOF token."
  | .cursor (.badCheckpoint checkpoint) => toString checkpoint
  | .cursor .outOfRange => "list index out of range"
  | .binding error => error.message
  | .noMatch failure => failure.message
  | .lines (.unknownBreaks name) => quote name
  | .lines .noSuchLine => "list index out of range"
  | .lines (.picture .tooLong) => "too many carets for a text"
  | .lines (.picture .tooLarge) => "too many carets for the memory"
  | .field error => error.message
  | .record error => error.message
  | .member error => error.message
  | .noTree => "the grammar has no tree"
  | .noToken => "there is no token"
  | .exhausted => "the match is nested too deeply"

end RecordGrammar
