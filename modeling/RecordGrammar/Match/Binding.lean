import RecordGrammar.Value

namespace RecordGrammar

/-! Bindings: what a match does to the record that it fills.

Nothing is bound while a match is under way. A match that succeeds gives a list of bindings, and
they are applied in order once the record to fill is at hand, so an attempt that fails half-way
leaves no trace.
-/

/-- A change to one attribute: it gets a value, or its list gets one more item. -/
inductive Binding where
  | assign (name : String) (value : Value)
  | append (name : String) (item : Value)
deriving Inhabited, Repr

/-- Why a binding cannot be applied: there can be no attribute of that name, what is found under
the name takes no items or only seems to, or the name stands for all attributes or for the type of
an object and the value is neither. -/
inductive BindingError where
  | noAttribute (name : String)
  | noList (name : String)
  | notCallable (typeName : String)
  | notAttributes (typeName : String)
  | notAType (typeName : String)
deriving DecidableEq, Repr

def BindingError.message : BindingError → String
  | .noAttribute name => "no attribute '" ++ name ++ "'"
  | .noList name => "no list in '" ++ name ++ "'"
  | .notCallable typeName => (MemberError.notCallable typeName).message
  | .notAttributes typeName =>
      Member.attributes ++ " must be set to a dictionary, not a '" ++ typeName ++ "'"
  | .notAType typeName =>
      Member.type ++ " must be set to a class, not '" ++ typeName ++ "' object"

/-- How the attributes of a target are read and changed. All that this can change is a state, and
what is found under a name stands in for itself. A target whose type is not ours may do as it likes
and refuse any of the three. -/
structure Storage (σ ρ ε : Type) where
  /-- What is found under a name, if anything is. -/
  find : σ → String → Except ε (Option ρ × σ)
  set : σ → String → Value → Except ε σ
  /-- Has what was found take one more item. -/
  extend : σ → ρ → Value → Except ε σ

namespace Binding

def name : Binding → String
  | .assign name _ => name
  | .append name _ => name

/-- Gives a name a value in its place, or a new place behind all others. -/
def put {α : Type} [BEq α] (entries : List (α × Value)) (name : α) (value : Value) :
    List (α × Value) :=
  match entries with
  | [] => [(name, value)]
  | entry :: rest =>
      if entry.1 == name then (name, value) :: rest else entry :: put rest name value

/-- What keeps an object from taking a value under a name: a few of its members never give way
to an attribute. -/
def refusal? (name : String) (value : Value) : Option BindingError :=
  if name == Member.attributes then some (.notAttributes value.typeName)
  else if name == Member.type then some (.notAType value.typeName)
  else if name == Member.referrers then some (.noAttribute name)
  else none

/-- Sets an attribute. An object takes nearly any attribute; a record, only its own. -/
def set (target : Value) (name : String) (value : Value) : Except BindingError Value :=
  match target with
  | .entity .factory typeName identity attributes =>
      match refusal? name value with
      | some error => .error error
      | none => .ok (.entity .factory typeName identity (put attributes name value))
  | .entity (.record shape) typeName identity attributes =>
      if attributes.any (fun entry => entry.1 == name) then
        .ok (.entity (.record shape) typeName identity (put attributes name value))
      else .error (.noAttribute name)
  | _ => .error (.noAttribute name)

/-- Applies a binding to a target with the given storage. The first item where nothing is found
makes a list. What is found otherwise takes the item itself, whoever else has it. -/
def applyIn {σ ρ ε : Type} (storage : Storage σ ρ ε) (binding : Binding) (state : σ) : Except ε σ :=
  match binding with
  | .assign name value => storage.set state name value
  | .append name item =>
      match storage.find state name with
      | .error error => .error error
      | .ok (none, state) => storage.set state name (.list [item])
      | .ok (some collection, state) => storage.extend state collection item

def applyAllIn {σ ρ ε : Type} (storage : Storage σ ρ ε) : List Binding → σ → Except ε σ
  | [], state => .ok state
  | binding :: rest, state =>
      match binding.applyIn storage state with
      | .ok next => applyAllIn storage rest next
      | .error error => .error error

/-- Has what was found under a name take one more item. Only a list does. -/
def extend (target : Value) (found : String × Option Value) (item : Value) :
    Except BindingError Value :=
  match found.2 with
  | some (.list items) => set target found.1 (.list (items ++ [item]))
  | held =>
      match held.bind Value.taker? with
      | some taker => .error (.notCallable taker.callee)
      | none => .error (.noList found.1)

/-- The storage of records and objects: all that they hold is part of them, so no two attributes
have one list. Where a member of an object is found, there is no attribute. -/
def ownStorage : Storage Value (String × Option Value) BindingError where
  find target name :=
    .ok (if target.lacks name then none else some (name, target.attribute? name), target)
  set := set
  extend := extend

/-- Applies a binding to a record or an object. -/
def apply (binding : Binding) (target : Value) : Except BindingError Value :=
  binding.applyIn ownStorage target

def applyAll (bindings : List Binding) (target : Value) : Except BindingError Value :=
  applyAllIn ownStorage bindings target

variable {target : Value} {name : String}

theorem apply_append_of_list {items : List Value}
    (held : target.attribute? name = some (.list items)) (item : Value) :
    (append name item).apply target = set target name (.list (items ++ [item])) := by
  have present : target.lacks name = false := by simp only [Value.lacks, held, Value.isNull]
  simp only [apply, applyIn, ownStorage, present, held, Bool.false_eq_true, if_false, extend]

theorem applyAll_nil (target : Value) : applyAll [] target = .ok target := rfl

theorem applyAll_cons {binding : Binding} {next : Value} (rest : List Binding)
    (applied : binding.apply target = .ok next) :
    applyAll (binding :: rest) target = applyAll rest next := by
  have applied : binding.applyIn ownStorage target = .ok next := applied
  simp only [applyAll, applyAllIn, applied]

end Binding

end RecordGrammar
