namespace RecordGrammar

/-! Nested scopes of names.

A name is defined at most once in a scope and is looked up from the scope outward. Scopes are
numbered in the order of their creation and refer to the scope around them by its number, so what
is defined later in an outer scope is seen by the inner ones that do not define it themselves.
-/

/-- The names of one scope. The place says where the scope lives, for the sake of messages. -/
structure Scope (κ α : Type) where
  place : Option String
  parent : Option Nat
  entries : List (κ × α)
deriving Repr

/-- Scopes by number. -/
abbrev Scopes (κ α : Type) := List (Scope κ α)

/-- Why a name is not found or not defined. -/
inductive ScopeError (κ : Type) where
  | missing (name : κ) (place : Option String)
  | alreadyDefined (name : κ) (place : Option String)
deriving DecidableEq, Repr

variable {κ α : Type} [BEq κ]

/-- The item that a scope itself defines under a name. -/
def Scope.own? (scope : Scope κ α) (name : κ) : Option α :=
  (scope.entries.find? fun entry => entry.1 == name).map (·.2)

/-- The names that a scope itself defines, in the order of their definition. -/
def Scope.names (scope : Scope κ α) : List κ :=
  scope.entries.map (·.1)

namespace Scopes

def create (scopes : Scopes κ α) (place : Option String) (parent : Option Nat) :
    Scopes κ α × Nat :=
  (scopes ++ [{ place, parent, entries := [] }], scopes.length)

/-- Looks a name up in a scope and then in the scopes around it. What no scope defines is missing
from the outermost one. A scope is only ever created inside one that exists already, so numbers
fall on the way out. -/
def lookup (scopes : Scopes κ α) (id : Nat) (name : κ) : Except (ScopeError κ) α :=
  match scopes[id]? with
  | none => .error (.missing name none)
  | some scope =>
      match scope.own? name, scope.parent with
      | some item, _ => .ok item
      | none, some parent =>
          if parent < id then lookup scopes parent name else .error (.missing name scope.place)
      | none, none => .error (.missing name scope.place)
termination_by id

def contains (scopes : Scopes κ α) (id : Nat) (name : κ) : Bool :=
  match scopes[id]? with
  | none => false
  | some scope =>
      scope.entries.any (fun entry => entry.1 == name) ||
        match scope.parent with
        | some parent => if parent < id then contains scopes parent name else false
        | none => false
termination_by id

/-- Defines a name in a scope that does not define it yet. -/
def define (scopes : Scopes κ α) (id : Nat) (name : κ) (item : α) :
    Except (ScopeError κ) (Scopes κ α) :=
  match scopes[id]? with
  | none => .error (.missing name none)
  | some scope =>
      match scope.own? name with
      | some _ => .error (.alreadyDefined name scope.place)
      | none => .ok (scopes.set id { scope with entries := scope.entries ++ [(name, item)] })

def names (scopes : Scopes κ α) (id : Nat) : List κ :=
  match scopes[id]? with
  | none => []
  | some scope => scope.names

end Scopes

end RecordGrammar
