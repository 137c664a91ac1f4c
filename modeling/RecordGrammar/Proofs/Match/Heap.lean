import RecordGrammar.Proofs.Match.Filling
import Mathlib.Logic.Function.Basic

namespace RecordGrammar

/-! Objects whose lists have places.

An object finds an attribute among its own and then among those of its type. A list is no part of
what has it: an attribute tells the place of its list, and attributes that tell one place have one
list. As long as no two do, such an object is a plain target. Otherwise a list that takes an item
for one attribute has it for another too.
-/

/-- What an attribute tells: a value that is no list, or the place of a list. -/
inductive Cell where
  | single (value : Value)
  | list (place : Nat)

/-- What a cell stands for among some lists. -/
def Cell.read (lists : List (List Value)) : Cell → Option Value
  | .single value => some value
  | .list place => (lists[place]?).map .list

/-- An object, what its type has for all of its objects, and the lists of both. Some names are not
to be set. -/
structure Heap where
  own : String → Option Cell := fun _ => none
  inherited : String → Option Cell := fun _ => none
  refuses : String → Bool := fun _ => false
  lists : List (List Value) := []

namespace Heap

def cell? (heap : Heap) (name : String) : Option Cell := (heap.own name).or (heap.inherited name)

def holds (heap : Heap) (name : String) : Option Value :=
  (heap.cell? name).bind (Cell.read heap.lists)

/-- The cell for a value, and all lists then. A list is given a new place. -/
def store (heap : Heap) : Value → Cell × List (List Value)
  | .list items => (.list heap.lists.length, heap.lists ++ [items])
  | value => (.single value, heap.lists)

/-- Gives the object itself an attribute. -/
def put (heap : Heap) (name : String) (stored : Cell × List (List Value)) : Heap :=
  { heap with own := Function.update heap.own name (some stored.1), lists := stored.2 }

def set (heap : Heap) (name : String) (value : Value) : Except BindingError Heap :=
  if heap.refuses name then .error (.noAttribute name) else .ok (heap.put name (heap.store value))

def find (heap : Heap) (name : String) : Option Cell :=
  match heap.cell? name with
  | some (.single .null) => none
  | cell => cell

/-- The list in a place takes one more item. It keeps its place. -/
def grow (heap : Heap) (place : Nat) (item : Value) : Heap :=
  { heap with lists := heap.lists.modify place (· ++ [item]) }

def extend (heap : Heap) (cell : Cell) (item : Value) : Except BindingError Heap :=
  match cell with
  | .list place => .ok (heap.grow place item)
  | .single _ => .error (.noAttribute Member.append)

def storage : Storage Heap Cell BindingError where
  find heap name := .ok (heap.find name, heap)
  set := set
  extend := extend

/-- An object that goes with some bindings: it does not refuse their names, and no two attributes
have one list. -/
structure Sound (bindings : List Binding) (heap : Heap) : Prop where
  willing : ∀ binding ∈ bindings, heap.refuses binding.name = false
  apart : ∀ name other place, heap.cell? name = some (.list place) →
    heap.cell? other = some (.list place) → name = other
  inside : ∀ name place, heap.cell? name = some (.list place) → place < heap.lists.length
  placed : ∀ name items, heap.cell? name ≠ some (.single (.list items))

variable {heap : Heap} {name : String} {value : Value} {bindings : List Binding}

theorem cell?_put (heap : Heap) (name : String) (stored : Cell × List (List Value))
    (other : String) :
    (heap.put name stored).cell? other =
      if other = name then some stored.1 else heap.cell? other := by
  by_cases same : other = name <;> simp [cell?, put, same]

theorem read_store (heap : Heap) (value : Value) :
    (heap.store value).1.read (heap.store value).2 = some value := by
  cases value <;> simp [store, Cell.read]

theorem list_store {place : Nat} (told : (heap.store value).1 = .list place) :
    place = heap.lists.length ∧ place < (heap.store value).2.length := by
  cases value <;> simp_all [store]

theorem store_ne_list (heap : Heap) (value : Value) (items : List Value) :
    (heap.store value).1 ≠ .single (.list items) := by
  cases value <;> simp [store]

/-- The lists there are stay in their places. -/
theorem store_prefix (heap : Heap) (value : Value) : heap.lists <+: (heap.store value).2 := by
  cases value <;> simp [store]

theorem cell?_grow (heap : Heap) (place : Nat) (item : Value) (name : String) :
    (heap.grow place item).cell? name = heap.cell? name := rfl

/-- Whatever tells the place of a list has the item that the list has taken. -/
theorem holds_grow {place : Nat} (told : heap.cell? name = some (.list place)) {items : List Value}
    (held : heap.lists[place]? = some items) (item : Value) :
    (heap.grow place item).holds name = some (.list (items ++ [item])) := by
  simp only [holds, cell?_grow, told, Option.bind_some, Cell.read]
  simp [grow, held]

namespace Sound

theorem put_store (sound : heap.Sound bindings) (name : String) (value : Value) :
    (heap.put name (heap.store value)).Sound bindings := by
  have kept := (heap.store_prefix value).length_le
  constructor
  · exact sound.willing
  · intro first second place firstCell secondCell
    rw [cell?_put] at firstCell secondCell
    split at firstCell <;> split at secondCell
    · simp_all
    · have here := sound.inside _ _ secondCell
      have there := (list_store (Option.some.inj firstCell)).1
      omega
    · have here := sound.inside _ _ firstCell
      have there := (list_store (Option.some.inj secondCell)).1
      omega
    · exact sound.apart _ _ _ firstCell secondCell
  · intro other place told
    rw [cell?_put] at told
    split at told
    · exact (list_store (Option.some.inj told)).2
    · exact Nat.lt_of_lt_of_le (sound.inside other place told) kept
  · intro other items told
    rw [cell?_put] at told
    split at told
    · exact heap.store_ne_list value items (Option.some.inj told)
    · exact sound.placed other items told

theorem changed_store (sound : heap.Sound bindings) (name : String) (value : Value) :
    Storage.Changed holds heap name value (heap.put name (heap.store value)) := by
  constructor
  · simp only [holds, cell?_put, if_true, Option.bind_some]
    exact heap.read_store value
  · intro other apart
    simp only [holds, cell?_put, if_neg apart]
    cases told : heap.cell? other with
    | none => rfl
    | some cell =>
        cases cell with
        | single held => rfl
        | list place =>
            have inside := sound.inside other place told
            obtain ⟨more, same⟩ := heap.store_prefix value
            simp only [Option.bind_some, Cell.read, put, ← same, List.getElem?_append_left inside]

/-- A list takes one more item for the one attribute that tells its place. -/
theorem changed_grow (sound : heap.Sound bindings) {name : String} {place : Nat}
    (told : heap.cell? name = some (.list place)) {items : List Value}
    (held : heap.lists[place]? = some items) (item : Value) :
    Storage.Changed holds heap name (.list (items ++ [item])) (heap.grow place item) := by
  refine ⟨holds_grow told held item, ?_⟩
  intro other apart
  simp only [holds, cell?_grow]
  cases toldToo : heap.cell? other with
  | none => rfl
  | some found =>
      cases found with
      | single value => rfl
      | list another =>
          have distinct : place ≠ another := by
            rintro rfl
            exact apart (sound.apart other name place toldToo told)
          simp [Cell.read, grow, distinct]

theorem grow (sound : heap.Sound bindings) (place : Nat) (item : Value) :
    (heap.grow place item).Sound bindings where
  willing := sound.willing
  apart := sound.apart
  inside := fun name place told => by simpa [Heap.grow] using sound.inside name place told
  placed := sound.placed

end Sound

/-- A list that is held has a place. -/
theorem place_of_list (sound : heap.Sound bindings) {items : List Value}
    (held : heap.holds name = some (.list items)) :
    ∃ place, heap.cell? name = some (.list place) ∧ heap.lists[place]? = some items := by
  obtain ⟨cell, told, read⟩ := Option.bind_eq_some_iff.mp held
  cases cell with
  | single value =>
      cases read
      exact absurd told (sound.placed name items)
  | list place =>
      obtain ⟨found, there, same⟩ := Option.map_eq_some_iff.mp read
      cases same
      exact ⟨place, told, there⟩

theorem find_of_list {place : Nat} (told : heap.cell? name = some (.list place)) :
    heap.find name = some (.list place) := by
  simp only [find, told]

theorem storage_plain (bindings : List Binding) :
    storage.Plain holds (Sound bindings) bindings where
  set_ok := by
    intro binding inside heap sound value
    refine ⟨_, ?_, sound.put_store binding.name value, sound.changed_store binding.name value⟩
    simp only [storage, set, sound.willing binding inside, Bool.false_eq_true, if_false]
  find_vacant := by
    intro name item inside heap sound vacant
    refine ⟨heap, ?_, sound, rfl⟩
    have nothing : heap.find name = none := by
      unfold find holds at *
      cases told : heap.cell? name with
      | none => rfl
      | some cell =>
          cases cell with
          | single value =>
              have null : value = .null := by simpa [Vacant, told, Cell.read] using vacant
              rw [null]
          | list place =>
              have there := List.getElem?_eq_getElem (sound.inside name place told)
              simp [Vacant, told, Cell.read, there] at vacant
    simp only [storage, nothing]
  find_list := by
    intro name item inside heap sound items held
    obtain ⟨place, told, _⟩ := place_of_list sound held
    exact ⟨.list place, heap, by simp only [storage, find_of_list told], sound, rfl⟩

theorem storage_unshared (bindings : List Binding) :
    storage.Unshared holds (Sound bindings) bindings := by
  intro name item inside heap sound items held collection next found added
  obtain ⟨place, told, there⟩ := place_of_list sound held
  simp only [storage, find_of_list told, Except.ok.injEq, Prod.mk.injEq, Option.some.injEq] at found
  obtain ⟨rfl, rfl⟩ := found
  exact ⟨_, rfl, sound.grow place added, sound.changed_grow told there added⟩

end Heap

end RecordGrammar
