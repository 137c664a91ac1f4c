import RecordGrammar.Proofs.Appended
import RecordGrammar.Scope

namespace RecordGrammar.Scopes

/-! Scopes are told by the history of the calls that made them and filled them.

Scopes inside and around each other are filled in any order, so an item may come to be seen from
scopes that are much older than it is. What is seen at any time depends on two things only: which
scopes stand around which, and what was first put into each of them under a name. -/

/-- What is asked of scopes, which are known by their numbers. -/
inductive Call (κ α : Type) where
  | create (place : Option String)
  | child (outer : Nat) (place : Option String)
  | define (id : Nat) (name : κ) (item : α)
  | lookup (id : Nat) (name : κ)
deriving Repr

variable {κ α : Type}

namespace Call

/-- The place of the scope that a call makes, and the scope around it. -/
def origin? : Call κ α → Option (Option String × Option Nat)
  | .create place => some (place, none)
  | .child outer place => some (place, some outer)
  | .define _ _ _ | .lookup _ _ => none

/-- Nobody can name a scope that has not been made yet. -/
def Addresses (count : Nat) : Call κ α → Prop
  | .create _ => True
  | .child outer _ => outer < count
  | .define id _ _ | .lookup id _ => id < count

def nameIn? (id : Nat) : Call κ α → Option κ
  | .define other name _ => if other = id then some name else none
  | _ => none

variable [BEq κ]

/-- The item that a call puts into a scope under a name. -/
def itemIn? (id : Nat) (name : κ) : Call κ α → Option α
  | .define other key item => if other = id ∧ key == name then some item else none
  | _ => none

/-- The scopes behind a call. A definition that is refused leaves them as they were. -/
def after (scopes : Scopes κ α) : Call κ α → Scopes κ α
  | .create place => (scopes.create place none).1
  | .child outer place => (scopes.create place (some outer)).1
  | .define id name item => (scopes.define id name item).toOption.getD scopes
  | .lookup _ _ => scopes

end Call

/-- The scopes that calls make, each with its place and the scope around it. -/
def origins (calls : List (Call κ α)) : List (Option String × Option Nat) :=
  calls.filterMap Call.origin?

/-- Calls of which each is about scopes that were made before it. -/
def Coherent (count : Nat) : List (Call κ α) → Prop
  | [] => True
  | call :: later => call.Addresses count ∧ Coherent (count + call.origin?.toList.length) later

/-- The names under which items were to be put into a scope, from the first to the last. -/
def namesIn (calls : List (Call κ α)) (id : Nat) : List κ := calls.filterMap (Call.nameIn? id)

/-- A scope and those around it, one around the other, to the outermost. -/
inductive Outward (origins : List (Option String × Option Nat)) : Nat → List Nat → Prop
  | outermost {id : Nat} {place : Option String} (stands : origins[id]? = some (place, none)) :
      Outward origins id [id]
  | inside {id outer : Nat} {place : Option String} {chain : List Nat}
      (stands : origins[id]? = some (place, some outer))
      (around : Outward origins outer chain) : Outward origins id (id :: chain)

variable [BEq κ]

def performAll (calls : List (Call κ α)) : Scopes κ α := calls.foldl Call.after []

/-- What was put into a scope under a name first. -/
def firstIn? (calls : List (Call κ α)) (id : Nat) (name : κ) : Option α :=
  calls.findSome? (Call.itemIn? id name)

/-- What was first put under a name into the nearest of some scopes that anything was put into under
that name. -/
def nearest? (calls : List (Call κ α)) (chain : List Nat) (name : κ) : Option α :=
  chain.findSome? fun id => firstIn? calls id name

/-- A chain of scopes comes to a certain one before any other into which something was put under a
name. -/
def ComesTo (calls : List (Call κ α)) (id : Nat) (name : κ) (chain : List Nat) : Prop :=
  ∃ inner outer, chain = inner ++ id :: outer ∧ ∀ other ∈ inner, firstIn? calls other name = none

/-- What scopes hold, as far as the calls tell that came before. -/
structure Reflects (calls : List (Call κ α)) (scopes : Scopes κ α) : Prop where
  made : scopes.map (fun scope => (scope.place, scope.parent)) = origins calls
  around : ∀ (id : Nat) place outer, (origins calls)[id]? = some (place, some outer) → outer < id
  items : ∀ id scope name, scopes[id]? = some scope → scope.own? name = firstIn? calls id name
  listed : ∀ id scope, scopes[id]? = some scope → scope.names = (namesIn calls id).eraseDups
  unmade : ∀ id, scopes.length ≤ id → namesIn calls id = []

section History

variable {calls : List (Call κ α)} {call : Call κ α} {id : Nat} {name : κ}

omit [BEq κ] in
theorem origins_concat : origins (calls ++ [call]) = origins calls ++ call.origin?.toList := by
  rw [origins, List.filterMap_append, ← origins]
  cases made : call.origin? <;> simp [made]

omit [BEq κ] in
theorem namesIn_concat :
    namesIn (calls ++ [call]) id = namesIn calls id ++ (call.nameIn? id).toList := by
  rw [namesIn, List.filterMap_append, ← namesIn]
  cases made : call.nameIn? id <;> simp [made]

theorem firstIn_concat :
    firstIn? (calls ++ [call]) id name = (firstIn? calls id name).or (call.itemIn? id name) := by
  rw [firstIn?, List.findSome?_append, List.findSome?_singleton, ← firstIn?]

theorem itemIn_isSome : (call.itemIn? id name).isSome = (call.nameIn? id).any (· == name) := by
  cases call with
  | create | child | lookup => rfl
  | define other key item =>
      by_cases here : other = id
      · cases same : key == name <;> simp [Call.itemIn?, Call.nameIn?, here, same]
      · simp [Call.itemIn?, Call.nameIn?, here]

theorem firstIn_isSome : (firstIn? calls id name).isSome = (namesIn calls id).any (· == name) := by
  induction calls with
  | nil => rfl
  | cons call later ih =>
      rw [firstIn?, List.findSome?_cons, ← firstIn?, namesIn, List.filterMap_cons, ← namesIn]
      have item : (call.itemIn? id name).isSome = (call.nameIn? id).any (· == name) := itemIn_isSome
      cases put : call.itemIn? id name <;> cases called : call.nameIn? id <;> simp_all

theorem firstIn_eq_none :
    firstIn? calls id name = none ↔ (namesIn calls id).any (· == name) = false := by
  rw [← firstIn_isSome, Option.isSome_eq_false_iff, Option.isNone_iff_eq_none]

variable [EquivBEq κ]

theorem firstIn_congr {other : κ} (same : name == other) :
    firstIn? calls id name = firstIn? calls id other := by
  have alike : Call.itemIn? (α := α) id name = Call.itemIn? id other := by
    funext call
    cases call <;> simp only [Call.itemIn?, BEq.congr_right same]
  rw [firstIn?, firstIn?, alike]

end History

section Reflects

variable {calls : List (Call κ α)} {call : Call κ α} {scopes : Scopes κ α} {scope : Scope κ α}
  {id : Nat} {name : κ} {item : α}

theorem Reflects.nil : Reflects ([] : List (Call κ α)) [] where
  made := rfl
  around _ _ _ stands := nomatch stands
  items _ _ _ found := nomatch found
  listed _ _ found := nomatch found
  unmade _ _ := rfl

theorem Reflects.length (told : Reflects calls scopes) :
    (origins calls).length = scopes.length := by
  rw [← told.made, List.length_map]

theorem Reflects.scope_at {place : Option String} {parent : Option Nat}
    (told : Reflects calls scopes) (stands : (origins calls)[id]? = some (place, parent)) :
    ∃ scope, scopes[id]? = some scope ∧ scope.place = place ∧ scope.parent = parent := by
  rw [← told.made, List.getElem?_map, Option.map_eq_some_iff] at stands
  obtain ⟨scope, found, same⟩ := stands
  exact ⟨scope, found, congrArg Prod.fst same, congrArg Prod.snd same⟩

omit [BEq κ] in
theorem Call.nameIn_of_origin {origin : Option String × Option Nat}
    (made : call.origin? = some origin) :
    call.nameIn? id = none := by
  cases call with
  | create | child | lookup => rfl
  | define => cases made

theorem firstIn_quiet (quiet : call.nameIn? id = none) :
    firstIn? (calls ++ [call]) id name = firstIn? calls id name := by
  have nothing : call.itemIn? id name = none := by
    rw [← Option.isNone_iff_eq_none, ← Option.isSome_eq_false_iff, itemIn_isSome, quiet,
      Option.any_none]
  rw [firstIn_concat, nothing, Option.or_none]

omit [BEq κ] in
theorem namesIn_quiet (quiet : call.nameIn? id = none) :
    namesIn (calls ++ [call]) id = namesIn calls id := by
  rw [namesIn_concat, quiet, Option.toList_none, List.append_nil]

omit [BEq κ] in
theorem origins_quiet (quiet : call.origin? = none) :
    origins (calls ++ [call]) = origins calls := by
  rw [origins_concat, quiet, Option.toList_none, List.append_nil]

theorem Reflects.created {place : Option String} {parent : Option Nat}
    (told : Reflects calls scopes) (made : call.origin? = some (place, parent))
    (around : ∀ outer, parent = some outer → outer < scopes.length) :
    Reflects (calls ++ [call]) (scopes.create place parent).1 := by
  have quiet (id : Nat) : call.nameIn? id = none := Call.nameIn_of_origin made
  have blank := told.unmade scopes.length (Nat.le_refl _)
  refine ⟨?_, ?_, ?_, ?_, ?_⟩
  · rw [Scopes.create, List.map_append, told.made, origins_concat, made]
    rfl
  · intro id outside outer stands
    rw [origins_concat, made, Option.toList_some, getElem?_append_one, told.length] at stands
    split at stands
    · rename_i last
      rw [last]
      exact around outer (congrArg Prod.snd (Option.some.inj stands))
    · exact told.around id outside outer stands
  · intro id scope name found
    rw [Scopes.create, getElem?_append_one] at found
    rw [firstIn_quiet (quiet id)]
    split at found
    · rename_i last
      rw [← Option.some.inj found, last, firstIn_eq_none.mpr (by rw [blank]; rfl)]
      rfl
    · exact told.items id scope name found
  · intro id scope found
    rw [Scopes.create, getElem?_append_one] at found
    rw [namesIn_quiet (quiet id)]
    split at found
    · rename_i last
      rw [← Option.some.inj found, last, blank]
      rfl
    · exact told.listed id scope found
  · intro id beyond
    rw [namesIn_quiet (quiet id)]
    apply told.unmade
    rw [Scopes.create, List.length_append] at beyond
    omega

theorem own_concat (key : κ) :
    Scope.own? { scope with entries := scope.entries ++ [(name, item)] } key =
      (scope.own? key).or (if name == key then some item else none) := by
  rw [Scope.own?, List.find?_append, Option.map_or, ← Scope.own?, List.find?_singleton]
  split <;> rfl

theorem Reflects.defined [EquivBEq κ] (told : Reflects calls scopes) (item : α)
    (found : scopes[id]? = some scope) (free : firstIn? calls id name = none) :
    Reflects (calls ++ [.define id name item])
      (scopes.set id { scope with entries := scope.entries ++ [(name, item)] }) := by
  have bound : id < scopes.length := (List.getElem?_eq_some_iff.mp found).1
  have stays : origins (calls ++ [.define id name item]) = origins calls := origins_quiet rfl
  have elsewhere {other : Nat} (apart : id ≠ other) :
      (Call.define id name item).nameIn? other = none := if_neg apart
  have here : (Call.define id name item).nameIn? id = some name := if_pos rfl
  refine ⟨?_, ?_, ?_, ?_, ?_⟩
  · have within : id < (scopes.map fun scope => (scope.place, scope.parent)).length := by
      rwa [List.length_map]
    have row : (scopes.map fun scope => (scope.place, scope.parent))[id] =
        (scope.place, scope.parent) := by
      rw [List.getElem_map, (List.getElem?_eq_some_iff.mp found).2]
    rw [stays, ← told.made, List.map_set, ← row, List.set_getElem_self]
  · rw [stays]
    exact told.around
  · intro other after key at_other
    rw [List.getElem?_set] at at_other
    by_cases same : id = other
    · subst other
      rw [if_pos rfl, if_pos bound, Option.some.injEq] at at_other
      rw [← at_other, own_concat, told.items id scope key found, firstIn_concat]
      simp only [Call.itemIn?, true_and]
    · rw [if_neg same] at at_other
      rw [firstIn_quiet (elsewhere same)]
      exact told.items other after key at_other
  · intro other after at_other
    rw [List.getElem?_set] at at_other
    by_cases same : id = other
    · subst other
      rw [if_pos rfl, if_pos bound, Option.some.injEq] at at_other
      rw [← at_other, namesIn_concat, here, Option.toList_some, eraseDups_append_one,
        firstIn_eq_none.mp free, if_neg Bool.false_ne_true, ← told.listed id scope found,
        Scope.names, List.map_append]
      rfl
    · rw [if_neg same] at at_other
      rw [namesIn_quiet (elsewhere same)]
      exact told.listed other after at_other
  · intro other beyond
    rw [List.length_set] at beyond
    have apart : id ≠ other := by omega
    rw [namesIn_quiet (elsewhere apart)]
    exact told.unmade other beyond

theorem firstIn_refused [EquivBEq κ] {first : α} {other : Nat} {key : κ}
    (taken : firstIn? calls id name = some first) :
    firstIn? (calls ++ [.define id name item]) other key = firstIn? calls other key := by
  rw [firstIn_concat, Call.itemIn?]
  by_cases hit : id = other ∧ name == key
  -- A definition under the same name comes after the one that stands already.
  · rw [← hit.1, ← firstIn_congr hit.2, taken, Option.some_or]
  · rw [if_neg hit, Option.or_none]

/-- A call that tells nothing new about any scope may leave them as they are. -/
theorem Reflects.unchanged (told : Reflects calls scopes) (quiet : call.origin? = none)
    (items : ∀ id name, firstIn? (calls ++ [call]) id name = firstIn? calls id name)
    (names : ∀ id, (namesIn (calls ++ [call]) id).eraseDups = (namesIn calls id).eraseDups)
    (beyond : ∀ id, scopes.length ≤ id → call.nameIn? id = none) :
    Reflects (calls ++ [call]) scopes := by
  refine ⟨?_, ?_, ?_, ?_, ?_⟩
  · rw [origins_quiet quiet, told.made]
  · rw [origins_quiet quiet]
    exact told.around
  · intro id scope name found
    rw [items, told.items id scope name found]
  · intro id scope found
    rw [names, told.listed id scope found]
  · intro id outside
    rw [namesIn_quiet (beyond id outside), told.unmade id outside]

theorem Reflects.looked (told : Reflects calls scopes) :
    Reflects (calls ++ [.lookup id name]) scopes := by
  have quiet (other : Nat) : (Call.lookup id name : Call κ α).nameIn? other = none := rfl
  apply told.unchanged rfl
  · intro other key
    exact firstIn_quiet (quiet other)
  · intro other
    rw [namesIn_quiet (quiet other)]
  · intro other _
    exact quiet other

theorem Reflects.refused [EquivBEq κ] (told : Reflects calls scopes) (bound : id < scopes.length)
    {first : α} (taken : firstIn? calls id name = some first) :
    Reflects (calls ++ [.define id name item]) scopes := by
  apply told.unchanged rfl
  · intro other key
    exact firstIn_refused taken
  · intro other
    rw [namesIn_concat, Call.nameIn?]
    split
    · rename_i same
      have known : (namesIn calls id).any (· == name) := by
        rw [← firstIn_isSome, taken, Option.isSome_some]
      rw [← same, Option.toList_some, eraseDups_append_one, if_pos known]
    · rw [Option.toList_none, List.append_nil]
  · intro other outside
    exact if_neg (by omega)

theorem Reflects.define_taken (told : Reflects calls scopes) (found : scopes[id]? = some scope)
    {first : α} (taken : firstIn? calls id name = some first) :
    scopes.define id name item = .error (.alreadyDefined name scope.place) := by
  simp only [Scopes.define, found, told.items id scope name found, taken]

theorem Reflects.define_free (told : Reflects calls scopes) (item : α)
    (found : scopes[id]? = some scope) (free : firstIn? calls id name = none) :
    scopes.define id name item =
      .ok (scopes.set id { scope with entries := scope.entries ++ [(name, item)] }) := by
  simp only [Scopes.define, found, told.items id scope name found, free]

theorem Reflects.after [EquivBEq κ] (told : Reflects calls scopes)
    (addressed : call.Addresses scopes.length) :
    Reflects (calls ++ [call]) (call.after scopes) := by
  cases call with
  | create place => exact told.created rfl (by intro outer inside; cases inside)
  | child around place =>
      apply told.created rfl
      intro outer inside
      cases inside
      exact addressed
  | lookup id name => exact told.looked
  | define id name item =>
      have found : scopes[id]? = some scopes[id] := List.getElem?_eq_getElem addressed
      cases put : firstIn? calls id name with
      | none =>
          rw [Call.after, told.define_free item found put]
          exact told.defined item found put
      | some first =>
          rw [Call.after, told.define_taken found put]
          exact told.refused addressed put

theorem length_after [EquivBEq κ] (told : Reflects calls scopes)
    (addressed : call.Addresses scopes.length) :
    (call.after scopes).length = scopes.length + call.origin?.toList.length := by
  rw [← (told.after addressed).length, origins_concat, List.length_append, told.length]

theorem Reflects.run [EquivBEq κ] {later : List (Call κ α)} (told : Reflects calls scopes)
    (coherent : Coherent scopes.length later) :
    Reflects (calls ++ later) (later.foldl Call.after scopes) := by
  induction later generalizing calls scopes with
  | nil => rwa [List.append_nil]
  | cons call later ih =>
      rw [List.append_cons]
      apply ih (told.after coherent.1)
      rw [length_after told coherent.1]
      exact coherent.2

theorem reflects_performAll [EquivBEq κ] (coherent : Coherent 0 calls) :
    Reflects calls (performAll calls) :=
  Reflects.nil.run coherent

end Reflects

section Lookup

variable {calls : List (Call κ α)} {scopes : Scopes κ α} {scope : Scope κ α} {chain : List Nat}
  {id : Nat} {name : κ} {item : α} {place : Option String}

omit [BEq κ] in
theorem Outward.last {standing : List (Option String × Option Nat)}
    (outward : Outward standing id chain) :
    ∃ outermost place, chain.getLast? = some outermost ∧
      standing[outermost]? = some (place, none) := by
  induction outward with
  | outermost stands => exact ⟨_, _, rfl, stands⟩
  | inside stands around ih =>
      obtain ⟨outermost, place, last, stands⟩ := ih
      exact ⟨outermost, place, by rw [List.getLast?_cons, last]; rfl, stands⟩

omit [BEq κ] in
theorem outward_exists {standing : List (Option String × Option Nat)}
    (around : ∀ (id : Nat) place outer, standing[id]? = some (place, some outer) → outer < id)
    (bound : id < standing.length) : ∃ chain, Outward standing id chain := by
  -- Numbers fall on the way out.
  induction id using Nat.strongRecOn with
  | ind id ih =>
      have stands := List.getElem?_eq_getElem bound
      match origin : standing[id] with
      | (place, none) => exact ⟨[id], .outermost (stands.trans (congrArg some origin))⟩
      | (place, some outer) =>
          rw [origin] at stands
          have smaller := around id place outer stands
          obtain ⟨chain, outward⟩ := ih outer smaller (Nat.lt_trans smaller bound)
          exact ⟨id :: chain, .inside stands outward⟩

theorem nearest_cons :
    nearest? calls (id :: chain) name =
      (firstIn? calls id name).or (nearest? calls chain name) := by
  rw [nearest?, List.findSome?_cons, ← nearest?]
  cases firstIn? calls id name <;> rfl

theorem Reflects.lookup_outermost (told : Reflects calls scopes)
    (stands : (origins calls)[id]? = some (place, none)) :
    scopes.lookup id name =
      match firstIn? calls id name with
      | some item => .ok item
      | none => .error (.missing name place) := by
  obtain ⟨scope, found, rfl, alone⟩ := told.scope_at stands
  rw [Scopes.lookup]
  simp only [found, told.items id scope name found, alone]
  cases firstIn? calls id name <;> rfl

theorem Reflects.lookup_inside {outer : Nat} (told : Reflects calls scopes)
    (stands : (origins calls)[id]? = some (place, some outer)) :
    scopes.lookup id name =
      match firstIn? calls id name with
      | some item => .ok item
      | none => scopes.lookup outer name := by
  obtain ⟨scope, found, _, inside⟩ := told.scope_at stands
  rw [Scopes.lookup]
  simp only [found, told.items id scope name found, inside]
  cases firstIn? calls id name with
  | none => exact if_pos (told.around id place outer stands)
  | some item => rfl

theorem Reflects.lookup_found (told : Reflects calls scopes)
    (outward : Outward (origins calls) id chain) (near : nearest? calls chain name = some item) :
    scopes.lookup id name = .ok item := by
  induction outward with
  | outermost stands =>
      rw [nearest_cons, nearest?, List.findSome?_nil, Option.or_none] at near
      rw [told.lookup_outermost stands, near]
  | inside stands around ih =>
      rw [nearest_cons] at near
      rw [told.lookup_inside stands]
      cases put : firstIn? calls _ name <;> rw [put] at near
      · exact ih near
      · exact congrArg Except.ok (Option.some.inj near)

theorem Reflects.lookup_missing (told : Reflects calls scopes)
    (outward : Outward (origins calls) id chain) (nowhere : nearest? calls chain name = none)
    {outermost : Nat} (last : chain.getLast? = some outermost)
    (stands : (origins calls)[outermost]? = some (place, none)) :
    scopes.lookup id name = .error (.missing name place) := by
  induction outward with
  | @outermost id _ here =>
      have same : id = outermost := Option.some.inj last
      rw [nearest_cons, Option.or_eq_none_iff, same] at nowhere
      rw [same, told.lookup_outermost stands, nowhere.1]
  | @inside id outer _ chain here around ih =>
      rw [nearest_cons, Option.or_eq_none_iff] at nowhere
      rw [told.lookup_inside here, nowhere.1]
      apply ih nowhere.2
      cases around <;> exact last

/-- Histories of the same scopes that agree on what is nearest agree on what is found. -/
theorem Reflects.lookup_congr {later : List (Call κ α)} {after : Scopes κ α}
    (told : Reflects calls scopes) (next : Reflects later after)
    (stays : origins later = origins calls) (outward : Outward (origins calls) id chain)
    (same : nearest? later chain name = nearest? calls chain name) :
    after.lookup id name = scopes.lookup id name := by
  have again := outward
  rw [← stays] at again
  cases near : nearest? calls chain name with
  | some item => rw [told.lookup_found outward near, next.lookup_found again (same.trans near)]
  | none =>
      obtain ⟨outermost, place, last, stands⟩ := outward.last
      rw [told.lookup_missing outward near last stands]
      rw [← stays] at stands
      exact next.lookup_missing again (same.trans near) last stands

omit [BEq κ] in
theorem names_eq (found : scopes[id]? = some scope) : scopes.names id = scope.names := by
  rw [Scopes.names, found]

theorem contains_iff (scopes : Scopes κ α) (id : Nat) (name : κ) :
    scopes.contains id name = true ↔ ∃ item, scopes.lookup id name = .ok item := by
  induction id using Nat.strongRecOn with
  | ind id ih =>
      rw [Scopes.contains, Scopes.lookup]
      cases found : scopes[id]? with
      | none => simp
      | some scope =>
          have own :
              scope.entries.any (fun entry => entry.1 == name) = (scope.own? name).isSome := by
            rw [Scope.own?, Option.isSome_map, List.isSome_find?]
          match put : scope.own? name, parent : scope.parent with
          | some item, _ => simp [own, put]
          | none, none => simp [own, put, parent]
          | none, some outer =>
              by_cases smaller : outer < id
              · simp [own, put, parent, smaller, ih outer smaller]
              · simp [own, put, parent, smaller]

end Lookup

section Definition

variable {calls : List (Call κ α)} {chain : List Nat} {id : Nat} {name key : κ} {item : α}

theorem firstIn_define {other : Nat} :
    firstIn? (calls ++ [.define id name item]) other key =
      (firstIn? calls other key).or (if id = other ∧ name == key then some item else none) :=
  firstIn_concat

/-- A new definition is seen where no nearer scope hides it. -/
theorem nearest_defined [EquivBEq κ] (free : firstIn? calls id name = none) (same : name == key)
    (comes : ComesTo calls id key chain) :
    nearest? (calls ++ [.define id name item]) chain key = some item := by
  obtain ⟨inner, outer, rfl, clear⟩ := comes
  induction inner with
  | nil =>
      rw [List.nil_append, nearest_cons, firstIn_define, ← firstIn_congr same, free,
        if_pos ⟨rfl, same⟩]
      rfl
  | cons head inner ih =>
      rw [List.cons_append, nearest_cons, firstIn_define, clear head List.mem_cons_self,
        Option.none_or]
      split
      · rfl
      · rw [Option.none_or]
        apply ih
        intro other member
        exact clear other (List.mem_cons_of_mem head member)

theorem nearest_apart (apart : ¬ (name == key ∧ ComesTo calls id key chain)) :
    nearest? (calls ++ [.define id name item]) chain key = nearest? calls chain key := by
  induction chain with
  | nil => rfl
  | cons head chain ih =>
      -- The chain would come to the scope at once if it began with it.
      have elsewhere : ¬ (id = head ∧ name == key) := by
        intro ⟨here, same⟩
        exact apart ⟨same, [], chain, congrArg (· :: chain) here.symm, by simp⟩
      rw [nearest_cons, nearest_cons, firstIn_define, if_neg elsewhere, Option.or_none]
      cases put : firstIn? calls head key with
      | some item => rfl
      | none =>
          rw [Option.none_or, Option.none_or]
          apply ih
          intro ⟨same, inner, outer, split, clear⟩
          apply apart
          refine ⟨same, head :: inner, outer, congrArg (head :: ·) split, ?_⟩
          intro other member
          rcases List.mem_cons.mp member with first | later
          · rw [first, put]
          · exact clear other later

end Definition

/-- What scopes give and take, told by the calls behind them. -/
structure Scoped (calls : List (Call κ α)) (scopes : Scopes κ α) : Prop where
  chained : ∀ id, id < (origins calls).length → ∃ chain, Outward (origins calls) id chain
  found : ∀ id chain name item, Outward (origins calls) id chain →
    nearest? calls chain name = some item → scopes.lookup id name = .ok item
  missing : ∀ id chain name, Outward (origins calls) id chain → nearest? calls chain name = none →
    ∃ (outermost : Nat) (place : Option String), chain.getLast? = some outermost ∧
      (origins calls)[outermost]? = some (place, none) ∧
      scopes.lookup id name = .error (.missing name place)
  contained : ∀ id name, scopes.contains id name = true ↔ ∃ item, scopes.lookup id name = .ok item
  listed : ∀ id, id < (origins calls).length → scopes.names id = (namesIn calls id).eraseDups
  refused : ∀ (id : Nat) place outer name first item, (origins calls)[id]? = some (place, outer) →
    firstIn? calls id name = some first →
      scopes.define id name item = .error (.alreadyDefined name place) ∧
        performAll (calls ++ [.define id name item]) = scopes
  defined : ∀ id name item, id < (origins calls).length → firstIn? calls id name = none →
    ∃ after, scopes.define id name item = .ok after ∧
    performAll (calls ++ [.define id name item]) = after ∧
      ∀ other chain key, Outward (origins calls) other chain →
        (name == key → ComesTo calls id key chain → after.lookup other key = .ok item) ∧
          (¬ (name == key ∧ ComesTo calls id key chain) →
            after.lookup other key = scopes.lookup other key)

/-- Scopes are nested, each name is given once in each of them, and what is given is seen from all
scopes inside that have no nearer one of that name. -/
theorem performAll_scoped [EquivBEq κ] (calls : List (Call κ α)) (coherent : Coherent 0 calls) :
    Scoped calls (performAll calls) := by
  have told := reflects_performAll coherent
  have last (call : Call κ α) : performAll (calls ++ [call]) = call.after (performAll calls) := by
    rw [performAll, List.foldl_append, ← performAll]
    rfl
  refine ⟨?_, ?_, ?_, contains_iff _, ?_, ?_, ?_⟩
  · intro id bound
    exact outward_exists told.around bound
  · intro id chain name item outward near
    exact told.lookup_found outward near
  · intro id chain name outward nowhere
    obtain ⟨outermost, place, last, stands⟩ := outward.last
    exact ⟨outermost, place, last, stands, told.lookup_missing outward nowhere last stands⟩
  · intro id bound
    rw [told.length] at bound
    have found := List.getElem?_eq_getElem bound
    rw [names_eq found, told.listed id _ found]
  · intro id place outer name first item stands taken
    obtain ⟨scope, found, rfl, _⟩ := told.scope_at stands
    refine ⟨told.define_taken found taken, ?_⟩
    rw [last, Call.after, told.define_taken found taken]
    rfl
  · intro id name item bound free
    rw [told.length] at bound
    have found := List.getElem?_eq_getElem bound
    have put := told.define_free item found free
    have next := told.defined item found free
    have stays : origins (calls ++ [.define id name item]) = origins calls := origins_quiet rfl
    refine ⟨_, put, ?_, ?_⟩
    · rw [last, Call.after, put]
      rfl
    intro other chain key outward
    constructor
    · intro same comes
      rw [← stays] at outward
      exact next.lookup_found outward (nearest_defined free same comes)
    · intro apart
      exact told.lookup_congr next stays outward (nearest_apart apart)

/-- The outer scope is filled when the inner one stands already, one definition hides another, and
one is refused. -/
def layered : List (Call String Nat) :=
  [.create (some "base"), .child 0 (some "inset"), .lookup 1 "width", .define 0 "width" 3,
    .define 1 "depth" 5, .define 0 "depth" 7, .define 0 "width" 9]

theorem layered_seen :
    Coherent 0 layered ∧ (performAll layered).lookup 1 "width" = .ok 3 ∧
      (performAll layered).lookup 1 "depth" = .ok 5 ∧
      (performAll layered).lookup 1 "height" = .error (.missing "height" (some "base")) ∧
      (performAll layered).names 0 = ["width", "depth"] ∧
      (performAll layered).define 0 "depth" 1 = .error (.alreadyDefined "depth" (some "base")) := by
  have coherent : Coherent 0 layered := by simp [Coherent, layered, Call.Addresses, Call.origin?]
  have told := performAll_scoped layered coherent
  have outward : Outward (origins layered) 1 [1, 0] := .inside rfl (.outermost rfl)
  obtain ⟨outermost, place, last, stands, missing⟩ := told.missing 1 [1, 0] "height" outward rfl
  cases last
  cases stands
  exact ⟨coherent, told.found 1 [1, 0] "width" 3 outward rfl,
    told.found 1 [1, 0] "depth" 5 outward rfl, missing, told.listed 0 (by decide),
    (told.refused 0 _ _ "depth" 7 1 rfl rfl).1⟩

end RecordGrammar.Scopes
