import RecordGrammar.Match.Binding

namespace RecordGrammar

/-! What bindings do to the target that they are applied to, one attribute at a time.

An attribute that is not named stays as it is. One that is assigned ends with the last value
assigned to it, and a list ends with the items appended to it, behind those it had. No attribute is
both assigned and appended to.

This takes a target that keeps what it is given, and whose lists are each the list of one attribute:
a list takes an item in its place, so whatever else has the list has the item.
-/

/-- There is nothing, or only what stands for nothing. -/
def Vacant (held : Option Value) : Prop := held = none ∨ held = some .null

/-- Items can be appended: there is nothing, or a list. -/
def Gathers (held : Option Value) : Prop := Vacant held ∨ ∃ items, held = some (.list items)

/-- The items of a list. Where there is none, there are none. -/
def Value.itemsOf : Option Value → List Value
  | some (.list items) => items
  | _ => []

theorem Vacant.itemsOf_eq {held : Option Value} (vacant : Vacant held) :
    Value.itemsOf held = [] := by
  rcases vacant with rfl | rfl <;> rfl

namespace Storage

/-- A target after one of its attributes was changed. `holds` tells what is held under a name. -/
structure Changed {σ : Type} (holds : σ → String → Option Value) (state : σ) (name : String)
    (held : Value) (next : σ) : Prop where
  here : holds next name = some held
  elsewhere : ∀ other, other ≠ name → holds next other = holds state other

/-- Targets that keep what some bindings give them. As long as they are `sound`, any value can be
set under a name that is bound, and nothing else changes with it. To look for a list changes
nothing; it is found where it is held, and nothing is found where nothing is held. -/
structure Plain {σ ρ ε : Type} (storage : Storage σ ρ ε) (holds : σ → String → Option Value)
    (sound : σ → Prop) (bindings : List Binding) : Prop where
  set_ok : ∀ binding ∈ bindings, ∀ state, sound state → ∀ value,
    ∃ next, storage.set state binding.name value = .ok next ∧ sound next ∧
      Changed holds state binding.name value next
  find_vacant : ∀ name item, .append name item ∈ bindings → ∀ state, sound state →
    Vacant (holds state name) →
      ∃ next, storage.find state name = .ok (none, next) ∧ sound next ∧ holds next = holds state
  find_list : ∀ name item, .append name item ∈ bindings → ∀ state, sound state → ∀ items,
    holds state name = some (.list items) →
      ∃ collection next, storage.find state name = .ok (some collection, next) ∧ sound next ∧
        holds next = holds state

/-- A list that is appended to is the list of one attribute: once it has taken an item, that
attribute has the item, and nothing else has changed. -/
def Unshared {σ ρ ε : Type} (storage : Storage σ ρ ε) (holds : σ → String → Option Value)
    (sound : σ → Prop) (bindings : List Binding) : Prop :=
  ∀ name item, .append name item ∈ bindings → ∀ state, sound state → ∀ items,
    holds state name = some (.list items) →
      ∀ collection next, storage.find state name = .ok (some collection, next) → ∀ added,
        ∃ last, storage.extend next collection added = .ok last ∧ sound last ∧
          Changed holds state name (.list (items ++ [added])) last

variable {σ ρ ε : Type} {storage : Storage σ ρ ε} {holds : σ → String → Option Value}
  {sound : σ → Prop} {binding : Binding} {rest : List Binding}

theorem Plain.tail (plain : storage.Plain holds sound (binding :: rest)) :
    storage.Plain holds sound rest where
  set_ok := fun later inside => plain.set_ok later (List.mem_cons_of_mem _ inside)
  find_vacant := fun name item inside => plain.find_vacant name item (List.mem_cons_of_mem _ inside)
  find_list := fun name item inside => plain.find_list name item (List.mem_cons_of_mem _ inside)

theorem Unshared.tail (unshared : storage.Unshared holds sound (binding :: rest)) :
    storage.Unshared holds sound rest :=
  fun name item inside => unshared name item (List.mem_cons_of_mem _ inside)

end Storage

namespace Binding

variable {name : String} {bindings : List Binding}

/-- The items that bindings append under a name. -/
def itemsFor (name : String) : List Binding → List Value
  | [] => []
  | .assign _ _ :: rest => itemsFor name rest
  | .append other item :: rest =>
      if other = name then item :: itemsFor name rest else itemsFor name rest

theorem itemsFor_eq_nil (unnamed : ∀ binding ∈ bindings, binding.name ≠ name) :
    itemsFor name bindings = [] := by
  induction bindings with
  | nil => rfl
  | cons binding rest ih =>
      obtain ⟨first, later⟩ := List.forall_mem_cons.mp unnamed
      cases binding with
      | assign other value => exact ih later
      | append other item =>
          rw [itemsFor, if_neg (show other ≠ name from first), ih later]

theorem itemsFor_ne_nil {item : Value} (inside : .append name item ∈ bindings) :
    itemsFor name bindings ≠ [] := by
  induction bindings with
  | nil => simp at inside
  | cons binding rest ih =>
      rcases List.mem_cons.mp inside with rfl | later
      · simp [itemsFor]
      · cases binding with
        | assign other value => exact ih later
        | append other first =>
            rw [itemsFor]
            split
            · simp
            · exact ih later

/-- What is held under its name once a binding has been applied. -/
def gives (prior : String → Option Value) : Binding → Value
  | .assign _ value => value
  | .append name item => .list (Value.itemsOf (prior name) ++ [item])

/-- Bindings that go with a target: what they append to is a list or nothing, and nothing is both
assigned and appended to. -/
structure Ready (prior : String → Option Value) (bindings : List Binding) : Prop where
  gathers : ∀ name item, .append name item ∈ bindings → Gathers (prior name)
  apart : ∀ name value item, .assign name value ∈ bindings → .append name item ∉ bindings

/-- What bindings come to, attribute by attribute. -/
structure Fills (bindings : List Binding) (prior held : String → Option Value) : Prop where
  unnamed : ∀ name, (∀ binding ∈ bindings, binding.name ≠ name) → held name = prior name
  assigned : ∀ before name value after, bindings = before ++ .assign name value :: after →
    (∀ later ∈ after, later.name ≠ name) → held name = some value
  collected : ∀ name item, .append name item ∈ bindings →
    held name = some (.list (Value.itemsOf (prior name) ++ itemsFor name bindings))

section Filling

variable {σ ρ ε : Type} {storage : Storage σ ρ ε} {holds : σ → String → Option Value}
  {sound : σ → Prop} {target next filled : σ} {binding : Binding} {rest : List Binding}

theorem applyIn_append (plain : storage.Plain holds sound bindings)
    (unshared : storage.Unshared holds sound bindings) (start : sound target) {item : Value}
    (inside : .append name item ∈ bindings) (gathers : Gathers (holds target name)) :
    ∃ next, (append name item).applyIn storage target = .ok next ∧ sound next ∧
      Storage.Changed holds target name
        (.list (Value.itemsOf (holds target name) ++ [item])) next := by
  rcases gathers with vacant | ⟨items, held⟩
  · obtain ⟨looked, found, kept, same⟩ := plain.find_vacant name item inside target start vacant
    obtain ⟨next, set, kept, changed⟩ := plain.set_ok _ inside looked kept (.list [item])
    refine ⟨next, by simpa only [applyIn, found, Binding.name] using set, kept, ?_, ?_⟩
    · rw [vacant.itemsOf_eq]
      exact changed.here
    · exact fun other apart => (changed.elsewhere other apart).trans (congrFun same other)
  · obtain ⟨collection, looked, found, _, _⟩ :=
      plain.find_list name item inside target start items held
    obtain ⟨next, extended, kept, changed⟩ :=
      unshared name item inside target start items held collection looked found item
    refine ⟨next, by simpa only [applyIn, found] using extended, kept, ?_⟩
    rw [held]
    exact changed

theorem applyIn_ok (plain : storage.Plain holds sound (binding :: rest))
    (unshared : storage.Unshared holds sound (binding :: rest)) (start : sound target)
    (ready : Ready (holds target) (binding :: rest)) :
    ∃ next, binding.applyIn storage target = .ok next ∧ sound next ∧
      Storage.Changed holds target binding.name (binding.gives (holds target)) next := by
  cases binding with
  | assign name value => exact plain.set_ok _ List.mem_cons_self target start value
  | append name item =>
      exact applyIn_append plain unshared start List.mem_cons_self
        (ready.gathers name item List.mem_cons_self)

/-- Once the first binding has been applied, the others go with the result. -/
theorem Ready.tail (ready : Ready (holds target) (binding :: rest))
    (changed : Storage.Changed holds target binding.name (binding.gives (holds target)) next) :
    Ready (holds next) rest := by
  constructor
  · intro name item inside
    by_cases same : name = binding.name
    · cases binding with
      | assign other value =>
          cases same
          exact absurd (List.mem_cons_of_mem _ inside) (ready.apart _ value item List.mem_cons_self)
      | append other first =>
          cases same
          exact .inr ⟨_, changed.here⟩
    · rw [changed.elsewhere name same]
      exact ready.gathers name item (List.mem_cons_of_mem _ inside)
  · intro name value item assigned appended
    exact ready.apart name value item (List.mem_cons_of_mem _ assigned)
      (List.mem_cons_of_mem _ appended)

theorem Fills.nil (prior : String → Option Value) : Fills [] prior prior := by
  refine ⟨fun _ _ => rfl, ?_, by simp⟩
  intro before name value after split
  simp at split

theorem Fills.cons (ready : Ready (holds target) (binding :: rest))
    (changed : Storage.Changed holds target binding.name (binding.gives (holds target)) next)
    (fills : Fills rest (holds next) (holds filled)) :
    Fills (binding :: rest) (holds target) (holds filled) := by
  constructor
  · intro name unnamed
    obtain ⟨first, later⟩ := List.forall_mem_cons.mp unnamed
    exact (fills.unnamed name later).trans (changed.elsewhere name (Ne.symm first))
  · intro before name value after split last
    cases before with
    | nil =>
        obtain ⟨rfl, rfl⟩ := List.cons.inj split
        exact (fills.unnamed name last).trans changed.here
    | cons first others =>
        exact fills.assigned others name value after (List.cons.inj split).2 last
  · intro name item inside
    have elsewhere (there : .append name item ∈ rest) (apart : name ≠ binding.name) :
        holds filled name =
          some (.list (Value.itemsOf (holds target name) ++ itemsFor name rest)) := by
      rw [fills.collected name item there, changed.elsewhere name apart]
    cases binding with
    | assign other value =>
        have there : .append name item ∈ rest := by simpa using inside
        refine elsewhere there ?_
        intro same
        cases same
        exact ready.apart other value item List.mem_cons_self inside
    | append other first =>
        by_cases same : other = name
        · cases same
          have here : holds next name =
              some (.list (Value.itemsOf (holds target name) ++ [first])) := changed.here
          rw [itemsFor, if_pos rfl]
          by_cases later : ∃ more, .append name more ∈ rest
          · obtain ⟨more, there⟩ := later
            rw [fills.collected name more there, here, Value.itemsOf, List.append_assoc,
              List.singleton_append]
          · have unnamed : ∀ binding ∈ rest, binding.name ≠ name := by
              intro binding there same
              cases binding with
              | assign place value =>
                  cases same
                  exact ready.apart _ value item (List.mem_cons_of_mem _ there) inside
              | append place more =>
                  cases same
                  exact later ⟨more, there⟩
            rw [fills.unnamed name unnamed, itemsFor_eq_nil unnamed]
            exact here
        · have there : .append name item ∈ rest := by
            rcases List.mem_cons.mp inside with first | there
            · cases first
              exact absurd rfl same
            · exact there
          rw [itemsFor, if_neg same]
          exact elsewhere there (Ne.symm same)

/-- Where each binding can be applied, all of them are, and the attributes come to hold what the
bindings say. -/
theorem applyAllIn_fills (plain : storage.Plain holds sound bindings)
    (unshared : storage.Unshared holds sound bindings) (start : sound target)
    (ready : Ready (holds target) bindings) :
    ∃ filled, applyAllIn storage bindings target = .ok filled ∧
      Fills bindings (holds target) (holds filled) := by
  induction bindings generalizing target with
  | nil => exact ⟨target, rfl, .nil (holds target)⟩
  | cons binding rest ih =>
      obtain ⟨next, applied, kept, changed⟩ := applyIn_ok plain unshared start ready
      obtain ⟨filled, appliedAll, fills⟩ := ih plain.tail unshared.tail kept (ready.tail changed)
      exact ⟨filled, by simp only [applyAllIn, applied, appliedAll], fills.cons ready changed⟩

end Filling

end Binding

end RecordGrammar
