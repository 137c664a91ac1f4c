namespace RecordGrammar

/-! Members: the names that an entity answers to by itself.

A member is found by its name, just as an attribute is, so an attribute of the same name can take
its place. An object looks its members up in its type, and keeps them all. A record looks them up
in itself: it still has its fields, but what the member was needed for fails.
-/

namespace Member

/-- Makes a record. -/
def make : String := "__new__"

/-- Gives a new record its first values. -/
def fillIn : String := "__init__"

/-- Finds what a record holds. -/
def get : String := "__getattribute__"

/-- Changes what a record holds. -/
def set : String := "__setattr__"

/-- Shows a record. -/
def display : String := "__repr__"

/-- Compares a record. -/
def compare : String := "__eq__"

/-- Turns a record into plain data. -/
def plainData : String := "as_dict"

/-- Takes one more item. Lists have it. -/
def append : String := "append"

/-- Is called when a record is. -/
def call : String := "__call__"

/-- Is called for whatever a record does not have. -/
def fallback : String := "__getattr__"

/-- The attributes of an object, all together. -/
def attributes : String := "__dict__"

/-- The type of an object. -/
def type : String := "__class__"

/-- The module that a type was made in. -/
def home : String := "__module__"

/-- Who refers to an object. -/
def referrers : String := "__weakref__"

/-- What the first values are given to. -/
def receiver : String := "self"

/-- The names by which a type keeps its fields. -/
def reserved : List String := ["_fields_", "__slots__"]

/-- The members of every object under which something is found. -/
def ofObjects : List String :=
  [make, fillIn, get, set, display, compare, attributes, type, home, "__delattr__", "__dir__",
   "__format__", "__ge__", "__getstate__", "__gt__", "__hash__", "__init_subclass__", "__le__",
   "__lt__", "__ne__", "__reduce__", "__reduce_ex__", "__sizeof__", "__str__",
   "__subclasshook__"]

end Member

/-- Why a member is of no use: it is not there, or a value that cannot be called has its place. -/
inductive MemberError where
  | absent (member : String)
  | notCallable (typeName : String)
deriving DecidableEq, Repr

/-- What is said about a member that is of no use. -/
def MemberError.message : MemberError → String
  | .absent member => "no attribute '" ++ member ++ "'"
  | .notCallable typeName => "'" ++ typeName ++ "' object is not callable"

end RecordGrammar
