import RecordGrammar.Proofs.Match.Filling

namespace RecordGrammar

/-! How records and objects take what is bound.

A record takes values for its own attributes, and an object for nearly any name. Both keep their
attributes, and the lists in them, to themselves.
-/

/-- The names under which no object takes a value. -/
def Member.unassignable : List String := [attributes, type, referrers]

namespace Value

/-- Whether an attribute can be set: a record has its own attributes, an object takes nearly all. -/
def Accepts (target : Value) (name : String) : Prop :=
  match target with
  | .entity (.record _) _ _ attributes => name ∈ attributes.map (·.1)
  | .entity .factory _ _ _ => name ∉ Member.unassignable
  | _ => False

/-- Whether items can be appended: nothing is found under the name, or a list. -/
def Collects (target : Value) (name : String) : Prop :=
  target.lacks name = true ∨ ∃ items, target.attribute? name = some (.list items)

/-- A value after one of its attributes was set: it takes what it took, and no member of it is
found where none was. -/
structure Changed (target : Value) (name : String) (held : Value) (next : Value) : Prop
    extends Storage.Changed attribute? target name held next where
  lacks : ∀ other, other ≠ name → next.lacks other = target.lacks other
  accepts : ∀ other, target.Accepts other → next.Accepts other

theorem named?_put (entries : List (String × Value)) (name : String) (held : Value)
    (other : String) :
    named? (Binding.put entries name held) other =
      if other = name then some held else named? entries other := by
  induction entries with
  | nil =>
      by_cases same : other = name
      · simp [Binding.put, named?, same]
      · simp [Binding.put, named?, same, Ne.symm same]
  | cons entry rest ih =>
      simp only [named?] at ih
      by_cases first : entry.1 = name
      · by_cases same : other = name
        · simp [Binding.put, named?, first, same]
        · simp [Binding.put, named?, same, first, Ne.symm same]
      · by_cases same : entry.1 = other
        · have apart : other ≠ name := fun also => first (same.trans also)
          simp [Binding.put, named?, same, apart]
        · simpa [Binding.put, named?, first, same] using ih

theorem map_put (entries : List (String × Value)) (name : String) (held : Value)
    (present : name ∈ entries.map (·.1)) :
    (Binding.put entries name held).map (·.1) = entries.map (·.1) := by
  induction entries with
  | nil => simp at present
  | cons entry rest ih =>
      by_cases first : entry.1 = name
      · simp [Binding.put, first]
      · have later : name ∈ rest.map (·.1) := by simpa [Ne.symm first] using present
        simp [Binding.put, first, ih later]

/-- The place of a name in a record lies between the names before it and those after it. -/
theorem named?_middle {before after : List (String × Value)} {name : String}
    (first : name ∉ before.map (·.1)) (held : Value) :
    named? (before ++ (name, held) :: after) name = some held := by
  have none : before.find? (fun entry => entry.1 == name) = none := by
    rw [List.find?_eq_none]
    intro entry listed same
    exact first (List.mem_map.mpr ⟨entry, listed, by simpa using same⟩)
  simp [named?, List.find?_append, none]

theorem put_middle {before after : List (String × Value)} {name : String}
    (first : name ∉ before.map (·.1)) (held later : Value) :
    Binding.put (before ++ (name, held) :: after) name later =
      before ++ (name, later) :: after := by
  induction before with
  | nil => simp [Binding.put]
  | cons entry rest ih =>
      simp only [List.map_cons, List.mem_cons, not_or] at first
      have other : (entry.1 == name) = false := by simpa using Ne.symm first.1
      simp [Binding.put, other, ih first.2]

theorem refusal?_eq_none {name : String} (assignable : name ∉ Member.unassignable) (held : Value) :
    Binding.refusal? name held = none := by
  simp only [Member.unassignable, List.mem_cons, List.not_mem_nil, or_false, not_or] at assignable
  obtain ⟨attributes, type, referrers⟩ := assignable
  simp [Binding.refusal?, attributes, type, referrers]

theorem set_record {shape : Nat} {typeName : String} {identity : Option Nat}
    {attributes : List (String × Value)} {name : String} (present : name ∈ attributes.map (·.1))
    (held : Value) :
    Binding.set (.entity (.record shape) typeName identity attributes) name held =
      .ok (.entity (.record shape) typeName identity (Binding.put attributes name held)) := by
  have found : attributes.any (fun entry => entry.1 == name) = true := by
    obtain ⟨entry, inside, same⟩ := List.mem_map.mp present
    exact List.any_eq_true.mpr ⟨entry, inside, beq_iff_eq.mpr same⟩
  simp only [Binding.set, found, if_true]

theorem set_ok {target : Value} {name : String} (accepts : target.Accepts name) (held : Value) :
    ∃ next, Binding.set target name held = .ok next ∧ target.Changed name held next := by
  cases target with
  | entity origin typeName identity attributes =>
      have changed (accepted : ∀ other, (entity origin typeName identity attributes).Accepts other →
          (entity origin typeName identity (Binding.put attributes name held)).Accepts other) :
          (entity origin typeName identity attributes).Changed name held
            (entity origin typeName identity (Binding.put attributes name held)) := by
        refine ⟨⟨?_, ?_⟩, ?_, accepted⟩
        · simp only [attribute?, named?_put, if_true]
        · intro other apart
          simp only [attribute?, named?_put, apart, if_false]
        · intro other apart
          simp only [Value.lacks, attribute?, named?_put, apart, if_false]
          cases origin <;> rfl
      cases origin with
      | record shape =>
          refine ⟨_, set_record accepts held, changed ?_⟩
          intro other accepted
          simpa only [Accepts, map_put attributes name held accepts] using accepted
      | factory =>
          refine ⟨_, by simp only [Binding.set, refusal?_eq_none accepts], changed ?_⟩
          exact fun other accepted => accepted
  | _ => exact absurd accepts id

/-- A value that goes with some bindings: it takes what they set, and no member of it is found where
they append. -/
structure Receives (bindings : List Binding) (target : Value) : Prop where
  accepts : ∀ binding ∈ bindings, target.Accepts binding.name
  clear : ∀ name item, .append name item ∈ bindings → target.attribute? name = none →
    target.lacks name = true

variable {bindings : List Binding} {target next : Value} {name : String} {held : Value}

theorem lacks_of_vacant {item : Value} (receives : target.Receives bindings)
    (inside : .append name item ∈ bindings) (vacant : Vacant (target.attribute? name)) :
    target.lacks name = true := by
  rcases vacant with none | null
  · exact receives.clear name item inside none
  · simp only [lacks, null, isNull]

theorem Changed.receives (changed : target.Changed name held next)
    (receives : target.Receives bindings) :
    next.Receives bindings := by
  refine ⟨fun binding inside => changed.accepts _ (receives.accepts binding inside), ?_⟩
  intro other item inside none
  by_cases same : other = name
  · cases same
    cases none.symm.trans changed.here
  · rw [changed.elsewhere other same] at none
    rw [changed.lacks other same]
    exact receives.clear other item inside none

theorem ownStorage_plain (bindings : List Binding) :
    Binding.ownStorage.Plain attribute? (Receives bindings) bindings where
  set_ok := by
    intro binding inside state receives value
    obtain ⟨next, set, changed⟩ := set_ok (receives.accepts binding inside) value
    exact ⟨next, set, changed.receives receives, changed.toChanged⟩
  find_vacant := by
    intro name item inside state receives vacant
    have lacks := lacks_of_vacant receives inside vacant
    exact ⟨state, by simp only [Binding.ownStorage, lacks, if_true], receives, rfl⟩
  find_list := by
    intro name item inside state receives items held
    have present : state.lacks name = false := by simp only [lacks, held, isNull]
    refine ⟨(name, some (.list items)), state, ?_, receives, rfl⟩
    simp only [Binding.ownStorage, present, Bool.false_eq_true, if_false, held]

theorem ownStorage_unshared (bindings : List Binding) :
    Binding.ownStorage.Unshared attribute? (Receives bindings) bindings := by
  intro name item inside state receives items held collection next found added
  have present : state.lacks name = false := by simp only [lacks, held, isNull]
  simp only [Binding.ownStorage, present, Bool.false_eq_true, if_false, held, Except.ok.injEq,
    Prod.mk.injEq, Option.some.injEq] at found
  obtain ⟨rfl, rfl⟩ := found
  obtain ⟨last, set, changed⟩ :=
    set_ok (receives.accepts _ inside) (.list (items ++ [added]))
  exact ⟨last, set, changed.receives receives, changed.toChanged⟩

end Value

namespace Binding

/-- Items that are appended to a list of a record come behind those it has. -/
theorem applyAll_appends {shape : Nat} {typeName name : String} {identity : Option Nat}
    {before after : List (String × Value)} (first : name ∉ before.map (·.1))
    (held items : List Value) :
    applyAll (items.map (.append name))
        (.entity (.record shape) typeName identity (before ++ (name, .list held) :: after)) =
      .ok (.entity (.record shape) typeName identity
        (before ++ (name, .list (held ++ items)) :: after)) := by
  induction items generalizing held with
  | nil => simp [applyAll_nil]
  | cons item rest ih =>
      have present : name ∈ (before ++ (name, Value.list held) :: after).map (·.1) := by simp
      have found : (Value.entity (.record shape) typeName identity
          (before ++ (name, .list held) :: after)).attribute? name = some (.list held) :=
        Value.named?_middle first (.list held)
      have step : (append name item).apply
          (.entity (.record shape) typeName identity (before ++ (name, .list held) :: after)) =
          .ok (.entity (.record shape) typeName identity
            (before ++ (name, .list (held ++ [item])) :: after)) := by
        rw [apply_append_of_list found, Value.set_record present, Value.put_middle first]
      rw [List.map_cons, applyAll_cons _ step]
      simpa using ih (held ++ [item])

end Binding

end RecordGrammar
