import RecordGrammar.Decimal.Layout
import RecordGrammar.Member
import RecordGrammar.Text.Quoted

namespace RecordGrammar

open RecordGrammar.Text

/-! Values: what the fields of a parsed record hold.

Records and objects are both *entities* with named attributes. A record belongs to the shape it was
made for and has exactly the attributes of that shape; an object was made by a factory of its own
and takes new attributes as they come. The identity of an entity is given to it when it is handed
out to somebody who may compare it later; nothing else depends on it.
-/

/-- Where an entity comes from. -/
inductive Origin where
  | record (shape : Nat)
  | factory
deriving DecidableEq, Repr

/-- A value. -/
inductive Value where
  | null
  | bool (value : Bool)
  | int (value : Int)
  | float (value : Float)
  | text (value : Wording)
  | list (items : List Value)
  | entity (origin : Origin) (name : String) (identity : Option Nat)
      (attributes : List (String × Value))
  | dictionary (entries : List (Wording × Value))
deriving Inhabited, Repr

namespace Value

def isNull : Value → Bool
  | .null => true
  | _ => false

/-- The name of the type of a value. -/
def typeName : Value → String
  | .null => "NoneType"
  | .bool _ => "bool"
  | .int _ => "int"
  | .float _ => "float"
  | .text _ => "str"
  | .list _ => "list"
  | .entity _ name _ _ => name
  | .dictionary _ => "dict"

def named? (entries : List (String × Value)) (name : String) : Option Value :=
  (entries.find? fun entry => entry.1 == name).map (·.2)

/-- The attribute of an entity with a given name. -/
def attribute? (value : Value) (name : String) : Option Value :=
  match value with
  | .entity _ _ _ attributes => named? attributes name
  | _ => none

/-- Whether nothing is found under a name. Objects have members that are found there as long as
no attribute is. -/
def lacks (value : Value) (name : String) : Bool :=
  match value.attribute? name with
  | some held => held.isNull
  | none =>
      match value with
      | .entity .factory _ _ _ => !Member.ofObjects.contains name
      | _ => true

mutual
/-- The first value that has the place of a member in a record, from the outside to the inside and
from the front to the back. What objects hold does not matter. -/
def obstacle? (member : String) : Value → Option Value
  | .list items => obstacleInItems? member items
  | .entity (.record _) _ _ attributes =>
      match named? attributes member with
      | some value => some value
      | none => obstacleInEntries? member attributes
  | _ => none

def obstacleInItems? (member : String) : List Value → Option Value
  | [] => none
  | item :: rest =>
      match item.obstacle? member with
      | some value => some value
      | none => obstacleInItems? member rest

/-- The first obstacle among named values. -/
def obstacleInEntries? (member : String) : List (String × Value) → Option Value
  | [] => none
  | (_, value) :: rest =>
      match value.obstacle? member with
      | some value => some value
      | none => obstacleInEntries? member rest
end

mutual
/-- The name of the type that cannot be called after all when a value is called. A record passes the
call on to what has the place of the member. -/
def callee : Value → String
  | .entity (.record _) name _ attributes => calleeAmong name attributes
  | value => value.typeName

/-- The same for a record with a type name and some attributes. -/
def calleeAmong (name : String) : List (String × Value) → String
  | [] => name
  | (field, value) :: rest =>
      if field == Member.call then value.callee else calleeAmong name rest
end

/-- What is found in a value that is no list when one more item is to be taken, if anything is. -/
def taker? (value : Value) : Option Value :=
  match value with
  | .entity (.record _) _ _ attributes =>
      (named? attributes Member.append).or (named? attributes Member.fallback)
  | _ => value.attribute? Member.append

/-- What a member gives for a value, if every record in there still has the member. -/
def through (value : Value) (member : String) (result : α) : Except MemberError α :=
  match value.obstacle? member with
  | some other => .error (.notCallable other.callee)
  | none => .ok result

mutual
/-- A value for people to read. A record shows its fields; an object shows only its name. -/
def display : Value → String
  | .null => "None"
  | .bool value => if value then "True" else "False"
  | .int value => toString value
  | .float value => Decimal.Layout.display.write value
  | .text value => quoteWording value
  | .list items => "[" ++ ", ".intercalate (displayItems items) ++ "]"
  | .entity (.record _) name _ attributes =>
      name ++ "(" ++ ", ".intercalate (displayAttributes attributes) ++ ")"
  | .entity .factory name _ _ => "<" ++ name ++ ">"
  | .dictionary entries => "\x7b" ++ ", ".intercalate (displayEntries entries) ++ "\x7d"

def displayItems : List Value → List String
  | [] => []
  | item :: rest => item.display :: displayItems rest

def displayAttributes : List (String × Value) → List String
  | [] => []
  | (name, value) :: rest => (name ++ "=" ++ value.display) :: displayAttributes rest

def displayEntries : List (Wording × Value) → List String
  | [] => []
  | (key, value) :: rest => (quoteWording key ++ ": " ++ value.display) :: displayEntries rest
end

mutual
/-- A value as plain data: records become dictionaries, at any depth. Objects stay. -/
def plain : Value → Value
  | .list items => .list (plainItems items)
  | .entity (.record _) _ _ attributes => .dictionary (plainEntries attributes)
  | value => value

def plainItems : List Value → List Value
  | [] => []
  | item :: rest => item.plain :: plainItems rest

def plainEntries : List (String × Value) → List (Wording × Value)
  | [] => []
  | (name, value) :: rest => (.ofString name, value.plain) :: plainEntries rest
end

/-- A value for people to read, if its records can be shown. -/
def shown (value : Value) : Except MemberError String :=
  value.through Member.display value.display

/-- A record as plain data. Other values have no such form. -/
def plainData (value : Value) : Except MemberError Value :=
  match value with
  | .entity (.record _) _ _ _ => value.through Member.plainData value.plain
  | _ =>
      match value.attribute? Member.plainData with
      | some other => .error (.notCallable other.callee)
      | none => .error (.absent Member.plainData)

/-- Whether an integer and a floating-point number are the same number. -/
def sameNumber (whole : Int) (number : Float) : Bool :=
  match Decimal.FloatParts.ofFloat number with
  | .notANumber => false
  | .infinite _ => false
  | .zero _ => whole == 0
  | .finite negative binary =>
      let size := binary.significand * Nat.pow 2 binary.exponent.toNat
      let scaled := whole.natAbs * Nat.pow 2 (-binary.exponent).toNat
      scaled == size && decide (whole < 0) == negative

def countBool (value : Bool) : Int := if value then 1 else 0

/-- Whether two values are known to be one and the same entity. -/
def identical : Value → Value → Bool
  | .entity _ _ (some left) _, .entity _ _ (some right) _ => left == right
  | _, _ => false

/-- What comes of a comparison that is left to a value. Records of other shapes differ from
everything; only if something else has the place of their comparison does it fail. -/
def differs : Value → Except MemberError Bool
  | .entity (.record _) _ _ attributes =>
      match named? attributes Member.compare with
      | some other => .error (.notCallable other.callee)
      | none => .ok false
  | _ => .ok false

mutual
/-- Whether two values are equal. Numbers and truth values are equal across their types by what
they count as, and a number that is none equals nothing. Records are equal if they come from the
same shape and have equal attributes; objects, only if they are one and the same. With `shared`,
both values are known to be reached in the same way from the same entity. -/
def equals (shared : Bool) : Value → Value → Except MemberError Bool
  | .null, .null => .ok true
  | .bool left, .bool right => .ok (left == right)
  | .bool left, .int right => .ok (countBool left == right)
  | .bool left, .float right => .ok (sameNumber (countBool left) right)
  | .int left, .bool right => .ok (left == countBool right)
  | .int left, .int right => .ok (left == right)
  | .int left, .float right => .ok (sameNumber left right)
  | .float left, .bool right => .ok (sameNumber (countBool right) left)
  | .float left, .int right => .ok (sameNumber right left)
  | .float left, .float right => .ok (left == right)
  | .text left, .text right => .ok (left == right)
  | .list left, .list right =>
      if shared then .ok true
      else if left.length == right.length then equalItems left right
      else .ok false
  | .entity (.record leftShape) leftName leftIdentity left,
    .entity (.record rightShape) rightName rightIdentity right =>
      match named? left Member.compare with
      | some other => .error (.notCallable other.callee)
      | none =>
          if leftShape == rightShape then
            equalAttributes
              (shared || identical (.entity (.record leftShape) leftName leftIdentity left)
                (.entity (.record rightShape) rightName rightIdentity right)) left right
          else .ok false
  | .entity (.record leftShape) leftName leftIdentity left, _ =>
      differs (.entity (.record leftShape) leftName leftIdentity left)
  | .entity .factory leftName leftIdentity left,
    .entity .factory rightName rightIdentity right =>
      .ok (shared || identical (.entity .factory leftName leftIdentity left)
        (.entity .factory rightName rightIdentity right))
  | .dictionary left, .dictionary right =>
      if shared then .ok true else equalEntries left right
  | _, right => differs right
termination_by structural left => left

/-- Whether two lists are equal item by item. An entity equals itself here, whatever it holds. -/
def equalItems : List Value → List Value → Except MemberError Bool
  | [], [] => .ok true
  | left :: leftRest, right :: rightRest =>
      if identical left right then equalItems leftRest rightRest
      else
        match equals false left right with
        | .ok true => equalItems leftRest rightRest
        | other => other
  | _, _ => .ok false
termination_by structural left => left

/-- Whether the attributes of two records of one shape are equal, field by field. -/
def equalAttributes (shared : Bool) :
    List (String × Value) → List (String × Value) → Except MemberError Bool
  | [], [] => .ok true
  | (leftName, left) :: leftRest, (rightName, right) :: rightRest =>
      if leftName == rightName then
        match equals shared left right with
        | .ok true => equalAttributes shared leftRest rightRest
        | other => other
      else .ok false
  | _, _ => .ok false
termination_by structural left => left

def equalEntries : List (Wording × Value) → List (Wording × Value) → Except MemberError Bool
  | [], [] => .ok true
  | (leftKey, left) :: leftRest, (rightKey, right) :: rightRest =>
      if leftKey == rightKey then
        match equals false left right with
        | .ok true => equalEntries leftRest rightRest
        | other => other
      else .ok false
  | _, _ => .ok false
termination_by structural left => left
end

mutual
/-- Gives an identity to every entity that has none yet, counting up from `next`. -/
def identify (next : Nat) : Value → Value × Nat
  | .list items =>
      let (items, next) := identifyItems next items
      (.list items, next)
  | .entity origin name identity attributes =>
      let (attributes, next) := identifyEntries next attributes
      match identity with
      | some identity => (.entity origin name (some identity) attributes, next)
      | none => (.entity origin name (some next) attributes, next + 1)
  | value => (value, next)

def identifyItems (next : Nat) : List Value → List Value × Nat
  | [] => ([], next)
  | item :: rest =>
      let (item, next) := identify next item
      let (rest, next) := identifyItems next rest
      (item :: rest, next)

def identifyEntries (next : Nat) : List (String × Value) → List (String × Value) × Nat
  | [] => ([], next)
  | (name, value) :: rest =>
      let (value, next) := identify next value
      let (rest, next) := identifyEntries next rest
      ((name, value) :: rest, next)
end

end Value

end RecordGrammar
