import RecordGrammar.Parse
import RecordGrammar.Proofs.Match.Fuel
import RecordGrammar.Proofs.Match.Parallel

namespace RecordGrammar

/-! The fuel of an attempt is enough.

Whether fuel runs out depends on the tree at hand, its site and the index, and of these there are no
more than `fuelFor` counts. As long as one more turn of fuel lets some run end that did not end
before, it uses up one of them. Once it lets none end, no fuel ever will. -/

namespace Tree

mutual
/-- The nodes of a tree, each with its site. -/
def nodes (site : Site) : Tree → List (Site × Tree)
  | .empty => [(site, .empty)]
  | .sequence members => (site, .sequence members) :: nodesAll site members
  | .alternation branches => (site, .alternation branches) :: nodesAll site branches
  | .repetition inner bound => (site, .repetition inner bound) :: inner.nodes site
  | .leaf taker => [(site, .leaf taker)]
  | .reference target field => [(site, .reference target field)]

def nodesAll (site : Site) : List Tree → List (Site × Tree)
  | [] => []
  | tree :: rest => tree.nodes site ++ nodesAll (site.after tree) rest
end

mutual
theorem length_nodes (site : Site) : (tree : Tree) → (tree.nodes site).length = tree.size
  | .empty | .leaf _ | .reference _ _ => rfl
  | .sequence members | .alternation members => by
      rw [nodes, size, List.length_cons, length_nodesAll site members, Nat.add_comm]
  | .repetition inner bound => by
      rw [nodes, size, List.length_cons, length_nodes site inner, Nat.add_comm]

theorem length_nodesAll (site : Site) :
    (trees : List Tree) → (nodesAll site trees).length = sizeAll trees
  | [] => rfl
  | tree :: rest => by
      rw [nodesAll, sizeAll, List.length_append, length_nodes site tree,
        length_nodesAll (site.after tree) rest]
end

theorem self_mem_nodes (site : Site) (tree : Tree) : (site, tree) ∈ tree.nodes site := by
  cases tree <;> simp [nodes]

def Within (places : List (Site × Tree)) (site : Site) (tree : Tree) : Prop :=
  tree.nodes site ⊆ places

theorem inRow_within {places : List (Site × Tree)} {site : Site} {trees : List Tree}
    (inside : nodesAll site trees ⊆ places) : InRow (Within places) site trees := by
  induction trees generalizing site with
  | nil => trivial
  | cons tree rest ih =>
      rw [nodesAll, List.append_subset] at inside
      exact ⟨inside.1, ih inside.2⟩

end Tree

/-- Some nodes that a run may come to in the trees of shapes. -/
def Environment.Covered (env : Environment) (places : List (Site × Tree)) : Prop :=
  ∀ shape root, env.root shape = .ok root → root.Within places ⟨some shape, 0⟩

/-- The trees of all shapes have so many nodes, or fewer. -/
def Environment.Weighs (env : Environment) (weight : Nat) : Prop :=
  ∃ places, env.Covered places ∧ places.length ≤ weight

namespace Outcome

/-- Whether fuel was enough. -/
def ended : Outcome → Bool
  | .exhausted => false
  | _ => true

@[simp] theorem ended_iff {outcome : Outcome} : outcome.ended = true ↔ outcome ≠ .exhausted := by
  cases outcome <;> simp [ended]

namespace Parallel

variable {related : MatchState → MatchState → Prop} {caused : Fault → Prop} {left right : Outcome}

theorem eq (parallel : Parallel related caused left right)
    (same : ∀ state other, related state other → state = other) : left = right := by
  cases parallel with
  | matched states => rw [same _ _ states]
  | failed states => rw [same _ _ states]
  | faulted _ states => rw [same _ _ states]
  | broken states => rw [same _ _ states]
  | exhausted => rfl

theorem ended_eq (parallel : Parallel related caused left right) : left.ended = right.ended := by
  cases parallel <;> rfl

end Parallel

end Outcome

namespace Tree

variable {env : Environment} {stream : TokenStream} {places : List (Site × Tree)}

/-- Runs from one index go the same way, whatever else the states remember. -/
theorem alongside_index (env : Environment) (stream : TokenStream) :
    Alongside env env stream (fun _ _ => True) (fun state next => state.index = next.index)
      (fun _ => True) where
  toReaches := reaches_anywhere env
  resolveEq := fun _ => rfl
  rootEq := rfl
  freshEq := rfl
  fillEq := rfl
  resolveError := fun _ => trivial
  rootError := fun _ => trivial
  freshError := fun _ => trivial
  bindingError := fun _ => trivial
  index := id
  goto := fun _ _ => rfl
  expect := fun {state next} same wanted => by
    simpa only [MatchState.index, Cursor.expect_index] using same
  advance := fun {state next} same => by
    have here : state.cursor.index = next.cursor.index := same
    simp only [MatchState.index, Cursor.advance, here]
    split <;> simp only [here]
  reached := fun _ _ same => same
  made := fun _ same => same

/-- Runs of covered trees stay among the nodes that cover them, and within the stream. -/
theorem alongside_within (stream : TokenStream) (covered : env.Covered places) :
    Alongside env env stream (Within places)
      (fun state next => state = next ∧ state.index ≤ stream.size) (fun _ => True) where
  members := fun inside => inRow_within fun node held => inside (List.mem_cons_of_mem _ held)
  branches := fun inside => inRow_within fun node held => inside (List.mem_cons_of_mem _ held)
  inner := fun inside node held => inside (List.mem_cons_of_mem _ held)
  root := fun built => covered _ _ built
  resolveEq := fun _ => rfl
  rootEq := rfl
  freshEq := rfl
  fillEq := rfl
  resolveError := fun _ => trivial
  rootError := fun _ => trivial
  freshError := fun _ => trivial
  bindingError := fun _ => trivial
  index := fun same => congrArg MatchState.index same.1
  goto := fun same within => ⟨by rw [same.1], within⟩
  expect := fun {state next} same wanted => by
    refine ⟨by rw [same.1], ?_⟩
    simpa only [MatchState.index, Cursor.expect_index] using same.2
  advance := fun {state next} same => by
    refine ⟨by rw [same.1], ?_⟩
    simp only [MatchState.index, Cursor.advance]
    split
    · rename_i inside
      exact inside
    · exact same.2
  reached := fun _ _ same => ⟨by rw [same.1], same.2⟩
  made := fun _ same => ⟨by rw [same.1], same.2⟩

theorem run_ended_eq (env : Environment) (stream : TokenStream) (fuel : Nat) (site : Site)
    (tree : Tree) {state next : MatchState} (same : state.index = next.index) :
    (run env stream fuel site tree state).ended = (run env stream fuel site tree next).ended :=
  (run_parallel (alongside_index env stream) fuel site tree state next trivial same).ended_eq

/-- Among some nodes, runs with so much fuel go like runs with another amount of it. -/
def Alike (env : Environment) (stream : TokenStream) (places : List (Site × Tree))
    (fuel other : Nat) : Prop :=
  ∀ site tree state, Within places site tree → state.index ≤ stream.size →
    run env stream fuel site tree state = run env stream other site tree state

theorem Alike.succ {fuel other : Nat} (covered : env.Covered places)
    (alike : Alike env stream places fuel other) :
    Alike env stream places (fuel + 1) (other + 1) := by
  intro site tree state inside within
  have alongside := alongside_within stream covered
  have together :
      Together (Within places) (fun state next => state = next ∧ state.index ≤ stream.size)
      (fun _ => True) (run env stream fuel) (run env stream other) := by
    rintro site tree state next inside ⟨rfl, within⟩
    rw [← alike site tree state inside within]
    exact run_parallel alongside fuel site tree state state inside ⟨rfl, within⟩
  exact (runNode_parallel alongside together site tree state state inside ⟨rfl, within⟩).eq
    fun _ _ same => same.1

/-- Once a bit of fuel makes no difference, no amount of it does. -/
theorem Alike.of_le {fuel enough : Nat} (covered : env.Covered places)
    (alike : Alike env stream places fuel (fuel + 1)) (more : fuel ≤ enough) :
    Alike env stream places fuel enough := by
  induction more with
  | refl => exact fun _ _ _ _ _ => rfl
  | @step middle _ ih =>
      intro site tree state inside within
      rw [alike site tree state inside within]
      exact ih.succ covered site tree state inside within

theorem countP_lt_countP {α : Type} {holds holdsToo : α → Bool} {items : List α} {item : α}
    (further : ∀ item ∈ items, holds item = true → holdsToo item = true) (member : item ∈ items)
    (before : holds item = false) (after : holdsToo item = true) :
    items.countP holds < items.countP holdsToo := by
  obtain ⟨front, back, rfl⟩ := List.append_of_mem member
  have atFront : front.countP holds ≤ front.countP holdsToo :=
    List.countP_mono_left fun other held => further other (by simp [held])
  have atBack : back.countP holds ≤ back.countP holdsToo :=
    List.countP_mono_left fun other held => further other (by simp [held])
  simp only [List.countP_append, List.countP_cons, before, after, if_true,
    Bool.false_eq_true, if_false]
  omega

/-- The nodes that a run may be at, each with an index. -/
def stations (stream : TokenStream) (places : List (Site × Tree)) : List ((Site × Tree) × Nat) :=
  places.flatMap fun place => (List.range (stream.size + 1)).map fun index => (place, index)

theorem length_stations (stream : TokenStream) (places : List (Site × Tree)) :
    (stations stream places).length = places.length * (stream.size + 1) := by
  induction places with
  | nil => simp [stations]
  | cons place rest ih =>
      have first : ((List.range (stream.size + 1)).map fun index => (place, index)).length =
          stream.size + 1 := by
        simp
      simp only [stations] at ih ⊢
      rw [List.flatMap_cons, List.length_append, first, ih, List.length_cons, Nat.succ_mul,
        Nat.add_comm]

/-- The number of stations from which so much fuel is enough. -/
def endedCount (env : Environment) (stream : TokenStream) (places : List (Site × Tree))
    (fuel : Nat) : Nat :=
  (stations stream places).countP fun station =>
    (run env stream fuel station.1.1 station.1.2 { cursor := { index := station.2 } }).ended

theorem ended_succ {fuel : Nat} {site : Site} {tree : Tree} {state : MatchState}
    (ended : (run env stream fuel site tree state).ended = true) :
    (run env stream (fuel + 1) site tree state).ended = true := by
  rw [run_eq_of_le env (Nat.le_succ fuel) (Outcome.ended_iff.mp ended)]
  exact ended

/-- Another bit of fuel lets a run end from one more station, or makes no difference at all. -/
theorem endedCount_lt_or_alike (env : Environment) (stream : TokenStream)
    (places : List (Site × Tree)) (fuel : Nat) :
    endedCount env stream places fuel < endedCount env stream places (fuel + 1) ∨
      Alike env stream places fuel (fuel + 1) := by
  by_cases alike : Alike env stream places fuel (fuel + 1)
  · exact .inr alike
  · left
    simp only [Alike, Classical.not_forall] at alike
    obtain ⟨site, tree, state, inside, within, differs⟩ := alike
    -- The two runs differ, so the one with less fuel was cut off, and its station is one that the
    -- other adds.
    have cut := (run_approximates_succ env stream fuel site tree state).resolve_right differs
    have same (fuel : Nat) : (run env stream fuel site tree state).ended =
        (run env stream fuel site tree { cursor := { index := state.index } }).ended :=
      run_ended_eq env stream fuel site tree rfl
    have station : ((site, tree), state.index) ∈ stations stream places := by
      simp only [stations, List.mem_flatMap, List.mem_map, List.mem_range]
      exact ⟨_, inside (self_mem_nodes site tree), _, Nat.lt_succ_of_le within, rfl⟩
    refine countP_lt_countP (fun _ _ => ended_succ) station ?_ ?_
    · rw [← same fuel, cut]
      rfl
    · rw [← same (fuel + 1), Outcome.ended_iff]
      exact fun cutToo => differs (cut.trans cutToo.symm)

theorem le_endedCount_or_alike (env : Environment) (stream : TokenStream)
    (places : List (Site × Tree)) (fuel : Nat) :
    fuel ≤ endedCount env stream places fuel ∨ ∃ less, less < fuel ∧
      Alike env stream places less (less + 1) := by
  induction fuel with
  | zero => exact .inl (Nat.zero_le _)
  | succ fuel ih =>
      rcases ih with many | ⟨less, below, alike⟩
      · rcases endedCount_lt_or_alike env stream places fuel with more | alike
        · exact .inl (Nat.lt_of_le_of_lt many more)
        · exact .inr ⟨fuel, Nat.lt_succ_self fuel, alike⟩
      · exact .inr ⟨less, Nat.lt_succ_of_lt below, alike⟩

/-- With fuel for every station, a run ends if it ends at all. -/
theorem run_eq_outcome_of_covered (covered : env.Covered places) {fuel : Nat}
    (enough : places.length * (stream.size + 1) < fuel) {site : Site} {tree : Tree}
    {state : MatchState} (inside : tree.Within places site) (within : state.index ≤ stream.size) :
    run env stream fuel site tree state = outcome env stream site tree state := by
  have few : endedCount env stream places fuel ≤ places.length * (stream.size + 1) := by
    rw [← length_stations]
    exact List.countP_le_length
  obtain ⟨less, below, alike⟩ :=
    (le_endedCount_or_alike env stream places fuel).resolve_left (by omega)
  obtain ⟨settled, agrees⟩ := run_settles env stream site tree state
  rw [← agrees (max fuel settled) (by omega),
    ← alike.of_le covered (Nat.le_of_lt below) site tree state inside within]
  exact alike.of_le covered (by omega) site tree state inside within

/-- The fuel of an attempt is enough for whatever ends at all. -/
theorem run_fuelFor_eq_outcome {weight : Nat} (weighs : env.Weighs weight) (site : Site)
    (tree : Tree) {state : MatchState} (within : state.index ≤ stream.size) :
    run env stream (tree.fuelFor weight stream) site tree state =
      outcome env stream site tree state := by
  obtain ⟨places, covered, light⟩ := weighs
  have total : (tree.nodes site ++ places).length ≤ weight + tree.size + 1 := by
    rw [List.length_append, length_nodes]
    omega
  have all : env.Covered (tree.nodes site ++ places) := fun shape root built =>
    List.subset_append_of_subset_right _ (covered shape root built)
  refine run_eq_outcome_of_covered all ?_ ?_ within
  · rw [fuelFor, Nat.mul_comm (stream.size + 1)]
    exact Nat.lt_succ_of_le (Nat.mul_le_mul_right _ total)
  · exact List.subset_append_left _ _

end Tree

namespace Registry

/-- The nodes of the trees of shapes, from the shape with a number on. -/
def nodesFrom (id : ShapeId) : List (Except Fault Tree) → List (Site × Tree)
  | [] => []
  | .ok root :: rest => root.nodes ⟨some id, 0⟩ ++ nodesFrom (id + 1) rest
  | .error _ :: rest => nodesFrom (id + 1) rest

theorem length_nodesFrom (id : ShapeId) (roots : List (Except Fault Tree)) (total : Nat) :
    roots.foldl (fun total root => total + rootSize root) total =
      total + (nodesFrom id roots).length := by
  induction roots generalizing id total with
  | nil => rfl
  | cons root rest ih =>
      rw [List.foldl_cons, ih (id + 1)]
      cases root with
      | ok tree => rw [nodesFrom, List.length_append, tree.length_nodes, rootSize, Nat.add_assoc]
      | error fault => rw [nodesFrom, rootSize, Nat.add_zero]

theorem nodes_subset_nodesFrom {roots : List (Except Fault Tree)} {offset : Nat} {root : Tree}
    (id : ShapeId) (held : roots[offset]? = some (.ok root)) :
    root.nodes ⟨some (id + offset), 0⟩ ⊆ nodesFrom id roots := by
  induction roots generalizing id offset with
  | nil => simp at held
  | cons first rest ih =>
      cases offset with
      | zero =>
          simp only [List.getElem?_cons_zero, Option.some.injEq] at held
          rw [held, nodesFrom]
          exact List.subset_append_left _ _
      | succ offset =>
          have later := ih (id + 1) (by simpa using held)
          rw [Nat.add_right_comm] at later
          cases first with
          | ok tree => exact List.subset_append_of_subset_right _ later
          | error fault => exact later

/-- The weight of a registry counts the nodes of all its trees. -/
theorem environment_weighs (registry : Registry) (kinds : KindTable) :
    (registry.environment kinds).Weighs (registry.weight kinds) := by
  refine ⟨nodesFrom 0 (registry.roots kinds), fun shape root built => ?_, ?_⟩
  · simp only [environment, List.getElem?_toArray] at built
    cases held : (registry.roots kinds)[shape]? with
    | none => simp [held] at built
    | some found =>
        simp only [held, Option.getD_some] at built
        have nodes := nodes_subset_nodesFrom 0 (built ▸ held)
        rwa [Nat.zero_add] at nodes
  · have total := length_nodesFrom 0 (registry.roots kinds) 0
    rw [Nat.zero_add] at total
    exact Nat.le_of_eq total.symm

end Registry

end RecordGrammar
