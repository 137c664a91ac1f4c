import Mathlib.Order.WellFoundedSet
import RecordGrammar.Proofs.Match.Nesting
import RecordGrammar.Proofs.Match.Refusal

namespace RecordGrammar

/-! Matching ends where no shape comes to itself again without taking a token.

Three things shrink in the course of a match: the tokens that are left, the shapes that may still be
come to before another token is taken, and the tree at hand. A group starts over only after it has
taken a token, so its turns come to an end with the tokens. -/

/-- A tree may succeed without taking a token. -/
inductive Idles (env : Environment) : Site → Tree → Prop
  | empty : Idles env site .empty
  | sequenceEnd : Idles env site (.sequence [])
  | sequenceStep (first : Idles env site member)
      (rest : Idles env (site.after member) (.sequence members)) :
      Idles env site (.sequence (member :: members))
  | branch (first : Idles env site branch) : Idles env site (.alternation (branch :: branches))
  | branches (rest : Idles env (site.after branch) (.alternation branches)) :
      Idles env site (.alternation (branch :: branches))
  | noTurn {inner : Tree} (needless : bound.least = 0) : Idles env site (.repetition inner bound)
  | turn {inner : Tree} (first : Idles env site inner) : Idles env site (.repetition inner bound)
  | reference (shape : ShapeId) (resolved : env.resolve site target = .ok shape)
      (built : env.root shape = .ok root) (nested : Idles env ⟨some shape, 0⟩ root) :
      Idles env site (.reference target field)

/-- A match of a tree may come to a reference to a shape before it has taken a token. -/
inductive Begins (env : Environment) : Site → Tree → ShapeId → Prop
  | member (begins : Begins env site member shape) :
      Begins env site (.sequence (member :: members)) shape
  | members (first : Idles env site member)
      (begins : Begins env (site.after member) (.sequence members) shape) :
      Begins env site (.sequence (member :: members)) shape
  | branch (begins : Begins env site branch shape) :
      Begins env site (.alternation (branch :: branches)) shape
  | branches (begins : Begins env (site.after branch) (.alternation branches) shape) :
      Begins env site (.alternation (branch :: branches)) shape
  | turn {inner : Tree} (begins : Begins env site inner shape) :
      Begins env site (.repetition inner bound) shape
  | reference (resolved : env.resolve site target = .ok shape) :
      Begins env site (.reference target field) shape

namespace Environment

/-- The tree of one shape may come to another shape where it begins. -/
def LeftCalls (env : Environment) (caller callee : ShapeId) : Prop :=
  ∃ root, env.root caller = .ok root ∧ Begins env ⟨some caller, 0⟩ root callee

/-- Only so many shapes have a tree. -/
def Finite (env : Environment) : Prop := {shape | ∃ root, env.root shape = .ok root}.Finite

/-- No shape comes back to itself where it begins. -/
def NoLeftRecursion (env : Environment) : Prop :=
  ∀ shape, ¬ Relation.TransGen env.LeftCalls shape shape

theorem wellFounded_leftCalls {env : Environment} (finite : env.Finite)
    (acyclic : env.NoLeftRecursion) :
    WellFounded fun callee caller => env.LeftCalls caller callee := by
  have strict : IsStrictOrder ShapeId fun callee caller =>
      Relation.TransGen env.LeftCalls caller callee :=
    { irrefl := acyclic, trans := fun _ _ _ later earlier => earlier.trans later }
  have rooted :=
    finite.wellFoundedOn (r := fun callee caller => Relation.TransGen env.LeftCalls caller callee)
  constructor
  -- A shape without a tree calls nothing, so only those with a tree have to be put in order.
  have bare {shape : ShapeId} (none : ¬ ∃ root, env.root shape = .ok root) :
      Acc (fun callee caller => env.LeftCalls caller callee) shape :=
    .intro shape fun callee ⟨root, built, _⟩ => absurd ⟨root, built⟩ none
  intro shape
  by_cases some : ∃ root, env.root shape = .ok root
  · refine rooted.induction some fun caller _ ih => .intro caller fun callee calls => ?_
    by_cases someToo : ∃ root, env.root callee = .ok root
    · exact ih callee someToo (.single calls)
    · exact bare someToo
  · exact bare some

end Environment

section Idling

variable {env : Environment} {stream : TokenStream}

theorem Iterates.ordered {site : Site} {inner : Tree} {bound : Bound} {taken start total stop : Nat}
    {bindings : List Binding} (within : start ≤ stream.size) :
    Iterates env stream site inner bound taken start total stop bindings → start ≤ stop
  | .full _ => Nat.le_refl _
  | .fails _ _ => Nat.le_refl _
  | .idles _ _ => Nat.le_refl _
  | .advances _ turn _ rest => by
      have passed := turn.passes within
      exact Nat.le_trans passed.ordered (rest.ordered (passed.le_size within))

theorem Verdict.success_of_prepend {verdict : Verdict} {stop : Nat} {bindings all : List Binding}
    (succeeded : verdict.prepend bindings = .success stop all) :
    ∃ later, verdict = .success stop later ∧ bindings ++ later = all := by
  cases verdict with
  | success last later =>
      cases succeeded
      exact ⟨later, rfl, rfl⟩
  | failure => cases succeeded

mutual
/-- A match that takes no token is one of a tree that may do without. -/
theorem Derives.idles {site : Site} {tree : Tree} {start : Nat} {verdict : Verdict} :
    Derives env stream site tree start verdict → (stop : Nat) → (bindings : List Binding) →
      verdict = .success stop bindings → stop = start → start ≤ stream.size → Idles env site tree
  | .empty, _, _, _, _, _ => .empty
  | .sequenceEnd, _, _, _, _, _ => .sequenceEnd
  | .sequenceStep first rest, stop, _, same, still, within => by
      obtain ⟨later, succeeded, _⟩ := Verdict.success_of_prepend same
      have passed := first.passes within
      have forward := passed.ordered
      have further := ((succeeded ▸ rest).passes (passed.le_size within)).ordered
      exact .sequenceStep (first.idles _ _ rfl (by omega) within)
        (rest.idles _ _ succeeded (by omega) (passed.le_size within))
  | .choiceTakes first, _, _, same, still, within => .branch (first.idles _ _ same still within)
  | .choiceSkips _ rest, _, _, same, still, within => .branches (rest.idles _ _ same still within)
  | .turnsEnough turns enough, _, _, same, still, within =>
      turns.groupIdles rfl ((Verdict.success.inj same).1.trans still) enough within
  | .leafTakes _ _ _ _, _, _, same, still, _ => by
      have stopped := (Verdict.success.inj same).1
      omega
  | .referenceTakes shape resolved built nested _ _, _, _, same, still, within =>
      .reference shape resolved built
        (nested.idles _ _ rfl ((Verdict.success.inj same).1.trans still) within)
  | .sequenceFails _, _, _, same, _, _ | .choiceEnd, _, _, same, _, _
  | .turnsTooFew _ _, _, _, same, _, _
  | .leafRefuses _, _, _, same, _, _ | .referenceFails _ _ _ _, _, _, same, _, _ => by cases same

theorem Iterates.groupIdles {site : Site} {inner : Tree} {bound : Bound}
    {taken start total stop : Nat} {bindings : List Binding} :
    Iterates env stream site inner bound taken start total stop bindings → taken = 0 →
      stop = start → bound.least ≤ total → start ≤ stream.size →
      Idles env site (.repetition inner bound)
  | .full _, first, _, enough, _ | .fails _ _, first, _, enough, _ =>
      .noTurn (Nat.le_zero.mp (first ▸ enough))
  | .idles _ turn, _, _, _, within => .turn (turn.idles _ _ rfl rfl within)
  | .advances _ turn moved rest, _, still, _, within => by
      have passed := turn.passes within
      have further := rest.ordered (passed.le_size within)
      exact absurd (Nat.le_antisymm (still ▸ further) passed.ordered) moved
end

end Idling

namespace Outcome

variable {stream : TokenStream} {outcome : Outcome}

theorem prepend_ended (ended : outcome ≠ .exhausted) (bindings : List Binding) :
    outcome.prepend bindings ≠ .exhausted := by
  cases outcome with
  | exhausted => exact ended
  | _ => simp [prepend]

theorem orRestore_exhausted_iff (outcome : Outcome) (checkpoint : Nat) :
    outcome.orRestore stream checkpoint = .exhausted ↔ outcome = .exhausted := by
  cases outcome with
  | failed mismatch state =>
      simp only [orRestore, MatchState.resume]
      cases state.restore stream checkpoint <;> simp
  | _ => simp [orRestore]

end Outcome

namespace Tree

variable {env : Environment} {stream : TokenStream}

theorem outcome_sound (env : Environment) (stream : TokenStream) :
    Sound env stream (outcome env stream) := by
  intro site tree state verdict within found
  obtain ⟨enough, agrees⟩ := run_settles env stream site tree state
  rw [← agrees enough (Nat.le_refl enough)] at found
  exact run_sound env stream enough within found

theorem outcome_idles {site : Site} {tree : Tree} {state next : MatchState}
    {bindings : List Binding} (ran : outcome env stream site tree state = .matched bindings next)
    (within : state.index ≤ stream.size) (still : next.index = state.index) :
    Idles env site tree := by
  have derived := @outcome_sound env stream site tree state
  rw [ran] at derived
  exact (derived within rfl).idles _ _ rfl still within

section Turns

variable {step : MatchState → Outcome}

theorem endTurns_ended (bound : Bound) (entry taken : Nat) (failure : Option Mismatch)
    (state : MatchState) :
    endTurns stream bound entry taken failure state ≠ .exhausted := by
  unfold endTurns
  split
  · simp only [MatchState.resume]
    cases state.restore stream entry with
    | error error => simp
    | ok back => cases failure <;> simp
  · simp

/-- Taking a token leaves fewer of them, not counting the last one, which marks the end. -/
theorem left_lt_of_passes {start stop : Nat} (within : start ≤ stream.size)
    (passed : stream.Passes start stop) (moved : stop ≠ start) :
    stream.size - 1 - stop < stream.size - 1 - start := by
  have ordered := passed.ordered
  have inside : start < stream.size := by
    rcases Nat.lt_or_ge start stream.size with inside | behind
    · exact inside
    · have still := passed.le_size within
      omega
  have last := passed.lt_size inside
  omega

/-- One turn for each token that is left, and one more, are all that a group ever takes. -/
theorem turns_eq_of_enough
    (kept : ∀ state, state.index ≤ stream.size → (step state).Keeps stream state) (bound : Bound)
    (entry : Nat) {fuel other : Nat} (taken : Nat) {state : MatchState}
    (within : state.index ≤ stream.size) (enough : stream.size - 1 - state.index < fuel)
    (enoughToo : stream.size - 1 - state.index < other) :
    turns stream step bound entry fuel taken state =
      turns stream step bound entry other taken state := by
  induction fuel generalizing other taken state with
  | zero => omega
  | succ fuel ih =>
      obtain ⟨less, rfl⟩ : ∃ less, other = less + 1 := ⟨other - 1, by omega⟩
      have turn := kept state within
      simp only [turns]
      split
      · cases ran : step state with
        | matched bindings next =>
            rw [ran] at turn
            simp only
            split
            · rfl
            · rename_i moved
              have fewer := left_lt_of_passes within turn.1 moved
              exact congrArg (Outcome.prepend bindings)
                (ih (taken + 1) (turn.1.le_size within) (by omega) (by omega))
        | _ => rfl
      · rfl

theorem turns_ended {index : Nat}
    (kept : ∀ state, state.index ≤ stream.size → (step state).Keeps stream state)
    (ended : ∀ state, index ≤ state.index → state.index ≤ stream.size → step state ≠ .exhausted)
    (bound : Bound) (entry : Nat) {fuel : Nat} (taken : Nat) {state : MatchState}
    (onward : index ≤ state.index) (within : state.index ≤ stream.size)
    (enough : stream.size - 1 - state.index < fuel) :
    turns stream step bound entry fuel taken state ≠ .exhausted := by
  induction fuel generalizing taken state with
  | zero => omega
  | succ fuel ih =>
      have turn := kept state within
      have finished := ended state onward within
      simp only [turns]
      split
      · cases ran : step state with
        | matched bindings next =>
            rw [ran] at turn
            simp only
            split
            · exact Outcome.prepend_ended (endTurns_ended bound entry _ none next) bindings
            · rename_i moved
              have fewer := left_lt_of_passes within turn.1 moved
              have further := turn.1.ordered
              exact Outcome.prepend_ended
                (ih (taken + 1) (Nat.le_trans onward further) (turn.1.le_size within) (by omega))
                  bindings
        | failed mismatch next =>
            simp only [MatchState.resume]
            cases next.restore stream state.index with
            | ok back => exact endTurns_ended bound entry taken _ back
            | error error => simp
        | exhausted => exact absurd ran finished
        | _ => simp
      · exact endTurns_ended bound entry taken none state

end Turns

section Order

variable {index : Nat}

/-- Whatever is matched from further on ends. -/
def EndsBehind (env : Environment) (stream : TokenStream) (index : Nat) : Prop :=
  ∀ site tree state, index < state.index → state.index ≤ stream.size →
    outcome env stream site tree state ≠ .exhausted

/-- The tree of a shape, if it has one, ends when it is matched from an index. -/
def RootEnds (env : Environment) (stream : TokenStream) (index : Nat) (shape : ShapeId) : Prop :=
  ∀ root state, env.root shape = .ok root → state.index = index →
    outcome env stream ⟨some shape, 0⟩ root state ≠ .exhausted

/-- A match ends if those of the shapes do that it may come to where it begins. -/
def EndsOnce (env : Environment) (stream : TokenStream) (index : Nat) (tree : Tree) : Prop :=
  ∀ site state, (∀ shape, Begins env site tree shape → RootEnds env stream index shape) →
    state.index = index → outcome env stream site tree state ≠ .exhausted

theorem inOrder_ended (behind : EndsBehind env stream index) {site : Site} {members : List Tree}
    {state : MatchState} (inside : ∀ member ∈ members, EndsOnce env stream index member)
    (begins : ∀ shape, Begins env site (.sequence members) shape → RootEnds env stream index shape)
    (here : state.index = index) (within : index ≤ stream.size) :
    inOrder (outcome env stream) site members state ≠ .exhausted := by
  induction members generalizing site state with
  | nil => simp [inOrder]
  | cons member rest ih =>
      have first :=
        inside member (by simp) site state (fun shape early => begins shape (.member early)) here
      simp only [inOrder]
      cases ran : outcome env stream site member state with
      | matched bindings next =>
          refine Outcome.prepend_ended ?_ bindings
          have passed := outcome_passes ran (here ▸ within)
          by_cases still : next.index = state.index
          · have idle := outcome_idles ran (here ▸ within) still
            exact ih (fun other held => inside other (List.mem_cons_of_mem _ held))
              (fun shape late => begins shape (.members idle late)) (still.trans here)
          · -- The member has taken a token, so the rest is matched from further on.
            have further : index < next.index := by
              have forward := passed.ordered
              omega
            have later := behind (site.after member) (.sequence rest) next further
              (passed.le_size (here ▸ within))
            rw [outcome_eq] at later
            exact fun cut => later ((Outcome.orRestore_exhausted_iff _ _).mpr cut)
      | exhausted => exact absurd ran first
      | _ => simp

theorem firstOf_ended {fallback : MatchState → Outcome}
    (falls : ∀ state, fallback state ≠ .exhausted) {site : Site} {branches : List Tree}
    {state : MatchState} (inside : ∀ branch ∈ branches, EndsOnce env stream index branch)
    (begins : ∀ shape, Begins env site (.alternation branches) shape →
      RootEnds env stream index shape)
    (here : state.index = index) (within : index ≤ stream.size) :
    firstOf stream (outcome env stream) fallback site branches state ≠ .exhausted := by
  induction branches generalizing site state with
  | nil => exact falls state
  | cons branch rest ih =>
      have first :=
        inside branch (by simp) site state (fun shape early => begins shape (.branch early)) here
      simp only [firstOf]
      cases ran : outcome env stream site branch state with
      | failed mismatch next =>
          simp only [next.resume_eq _ (here ▸ within)]
          exact ih (fun other held => inside other (List.mem_cons_of_mem _ held))
            (fun shape late => begins shape (.branches late)) here
      | exhausted => exact absurd ran first
      | _ => simp

theorem complete_ended (env : Environment) (shape : ShapeId) (field : Field)
    (bindings : List Binding) (state : MatchState) :
    complete env shape field bindings state ≠ .exhausted := by
  unfold complete
  simp only
  split
  · simp
  · split <;> simp

theorem endsOnce (behind : EndsBehind env stream index) (within : index ≤ stream.size)
    (tree : Tree) :
    EndsOnce env stream index tree := by
  induction tree with
  | empty | leaf =>
      intro site state _ _
      rw [outcome_eq]
      simp only [runNode, Leaf.run, Leaf.refuse]
      repeat' split
      all_goals simp
  | sequence members ih =>
      intro site state begins here
      rw [outcome_eq]
      exact fun cut =>
        inOrder_ended behind ih begins here within ((Outcome.orRestore_exhausted_iff _ _).mp cut)
  | alternation branches ih =>
      intro site state begins here
      rw [outcome_eq]
      exact firstOf_ended (fun _ => by simp) ih begins here within
  | repetition inner bound ih =>
      intro site state begins here
      have kept : ∀ state, state.index ≤ stream.size →
          (outcome env stream site inner state).Keeps stream state :=
        outcome_keeps env stream site inner
      rw [outcome_eq]
      refine turns_ended kept (fun next onward inside => ?_) bound _ 0 (Nat.le_of_eq here.symm)
        (here ▸ within) (by omega)
      rcases Nat.lt_or_eq_of_le onward with further | same
      · exact behind site inner next further inside
      · exact ih site next (fun shape early => begins shape (.turn early)) same.symm
  | reference target field =>
      intro site state begins here
      rw [outcome_eq]
      simp only [runNode]
      cases resolved : env.resolve site target with
      | error fault => simp
      | ok shape =>
          simp only
          cases built : env.root shape with
          | error fault => simp
          | ok root =>
              have nested :=
                begins shape (.reference resolved) root
                  (state.note (.reached site shape)) built here
              simp only
              cases ran : outcome env stream ⟨some shape, 0⟩ root
                (state.note (.reached site shape)) with
              | matched bindings next => exact complete_ended env shape field bindings next
              | exhausted => exact absurd ran nested
              | _ => simp [Outcome.orRestore_exhausted_iff]

theorem rootEnds (finite : env.Finite) (acyclic : env.NoLeftRecursion)
    (behind : EndsBehind env stream index) (within : index ≤ stream.size) (shape : ShapeId) :
    RootEnds env stream index shape := by
  induction shape using (Environment.wellFounded_leftCalls finite acyclic).induction with
  | _ shape ih =>
      intro root state built here
      exact endsOnce behind within root _ state
        (fun callee early => ih callee ⟨root, built, early⟩) here

/-- Among finitely many shapes of which none comes back to itself where it begins, every match
ends. -/
theorem outcome_ended (finite : env.Finite) (acyclic : env.NoLeftRecursion) (site : Site)
    (tree : Tree) (state : MatchState) (within : state.index ≤ stream.size) :
    outcome env stream site tree state ≠ .exhausted := by
  induction left : stream.size - state.index using Nat.strongRecOn generalizing site tree state with
  | _ left ih =>
      have behind : EndsBehind env stream state.index := fun site tree next further inside =>
        ih (stream.size - next.index) (by omega) site tree next inside rfl
      exact endsOnce behind within tree site state
        (fun shape _ => rootEnds finite acyclic behind within shape) rfl

end Order

end Tree

theorem TurnAt.taken_le {env : Environment} {stream : TokenStream} {site : Site} {inner : Tree}
    {bound : Bound} {taken start total place : Nat}
    (begins : TurnAt env stream site inner bound taken start total place)
    (within : start ≤ stream.size) :
    total + (stream.size - 1 - place) ≤ taken + (stream.size - 1 - start) := by
  induction begins with
  | here => exact Nat.le_refl _
  | next _ turn moved _ ih =>
      have passed := turn.passes within
      have fewer := Tree.left_lt_of_passes within passed moved
      have later := ih (passed.le_size within)
      omega

/-- A match is done: it has succeeded, it has failed, or it has come upon a fault. -/
def Outcome.Concludes : Outcome → Prop
  | .matched _ _ | .failed _ _ | .faulted _ _ => True
  | .broken _ _ | .exhausted => False

namespace Tree

variable {env : Environment} {stream : TokenStream}

theorem outcome_concludes (finite : env.Finite) (acyclic : env.NoLeftRecursion) (site : Site)
    (tree : Tree) (state : MatchState) (within : state.index ≤ stream.size) :
    (outcome env stream site tree state).Concludes := by
  have ended := outcome_ended finite acyclic site tree state within
  have keeps := outcome_keeps env stream site tree state within
  cases ran : outcome env stream site tree state with
  | broken breach next =>
      rw [ran] at keeps
      exact keeps
  | exhausted => exact absurd ran ended
  | _ => trivial

/-- Among finitely many shapes of which none comes back to itself before it has taken a token, every
match is done at some point, and the fuel of an attempt is enough for that. A group takes at most
one turn more than there are tokens left: it runs like a loop cut off there, and no turn begins
after so many others. -/
theorem run_concludes (finite : env.Finite) (acyclic : env.NoLeftRecursion) (stream : TokenStream)
    (site : Site) (tree : Tree) (state : MatchState) (within : state.index ≤ stream.size) :
    (∃ enough, ∀ fuel, enough ≤ fuel → (run env stream fuel site tree state).Concludes) ∧
    (∀ weight, env.Weighs weight →
      (run env stream (tree.fuelFor weight stream) site tree state).Concludes) ∧
    ∀ inner bound, tree = .repetition inner bound →
      (∀ fuel, run env stream (fuel + 1) site tree state =
        turns stream (run env stream fuel site inner) bound state.index
          (stream.size - 1 - state.index + 1) 0 state) ∧
      ∀ taken place, TurnAt env stream site inner bound 0 state.index taken place →
        taken ≤ stream.size - 1 - state.index := by
  have concludes := outcome_concludes finite acyclic site tree state within
  refine ⟨?_, ?_, ?_⟩
  · obtain ⟨enough, agrees⟩ := run_settles env stream site tree state
    refine ⟨enough, fun fuel more => ?_⟩
    have same : run env stream fuel site tree state = outcome env stream site tree state :=
      agrees fuel more
    rwa [same]
  · intro weight weighs
    rwa [run_fuelFor_eq_outcome weighs site tree within]
  · intro inner bound group
    subst group
    constructor
    · intro fuel
      exact turns_eq_of_enough (run_keeps env stream fuel site inner) bound _ 0 within (by omega)
        (by omega)
    · intro taken place begins
      have bounded := TurnAt.taken_le begins within
      omega

end Tree

namespace Nest

def markField : Field where
  name := "mark"
  rule := "('x')?"

def marksField : Field where
  name := "marks"
  rule := "(((@@)?)*)+"
  kind := .nested
  element := some (.shape 1 "Mark")
  many := true

def idle : Tree := .repetition (.leaf (.literal "x" markField)) .optional

/-- Three groups, one inside of the other, around something that may take no token either. -/
def idlers : Tree :=
  .repetition
    (.repetition (.repetition (.reference (.shape 1 "Mark") marksField) .optional) .optionalOrMore)
    .onceOrMore

def idleEnv : Environment where
  resolve := fun _ _ => .ok 1
  root := fun id => if id = 0 then .ok idlers else if id = 1 then .ok idle else .error .noTree
  fresh := fun id => .ok (.entity (.record id) "Mark" none [])
  fill := Binding.applyAll

/-- Two tokens for marks. -/
def marked : TokenStream where
  tokens := #[mark "x" 0, mark "x" 1, finish 2]
  ended := ⟨finish 2, rfl, rfl⟩

theorem idleEnv_root {id : Nat} {root : Tree} (built : idleEnv.root id = .ok root) :
    id = 0 ∧ root = idlers ∨ id = 1 ∧ root = idle := by
  match id with
  | 0 => exact .inl ⟨rfl, (Except.ok.inj built).symm⟩
  | 1 => exact .inr ⟨rfl, (Except.ok.inj built).symm⟩
  | id + 2 => cases built

theorem idleEnv_finite : idleEnv.Finite := by
  refine (Set.finite_Iic 1).subset fun id held => ?_
  obtain ⟨root, built⟩ := held
  rcases idleEnv_root built with ⟨rfl, _⟩ | ⟨rfl, _⟩ <;> simp

theorem begins_idleEnv {site : Site} {tree : Tree} {shape : ShapeId}
    (begins : Begins idleEnv site tree shape) :
    shape = 1 := by
  induction begins with
  | reference resolved => exact (Except.ok.inj resolved).symm
  | _ => assumption

theorem idleEnv_leftCalls {caller callee : Nat} (calls : idleEnv.LeftCalls caller callee) :
    caller < callee := by
  obtain ⟨root, built, begins⟩ := calls
  rw [begins_idleEnv begins]
  rcases idleEnv_root built with ⟨rfl, rfl⟩ | ⟨rfl, rfl⟩
  · exact Nat.zero_lt_one
  · cases begins with
    | turn begins => cases begins

theorem idleEnv_noLeftRecursion : idleEnv.NoLeftRecursion := by
  intro shape cycle
  have forward : ∀ {caller callee : Nat}, Relation.TransGen idleEnv.LeftCalls caller callee →
      caller < callee := by
    intro caller callee path
    induction path with
    | single calls => exact idleEnv_leftCalls calls
    | tail _ calls ih => exact Nat.lt_trans ih (idleEnv_leftCalls calls)
  exact Nat.lt_irrefl _ (forward cycle)

/-- The groups come to an end at the tokens and behind them. -/
theorem idlers_conclude :
    idleEnv.Finite ∧ idleEnv.NoLeftRecursion ∧ (0 : Nat) ≤ marked.size ∧
      ∃ enough, ∀ fuel, enough ≤ fuel → (idlers.run idleEnv marked fuel ⟨some 0, 0⟩ {}).Concludes :=
  ⟨idleEnv_finite, idleEnv_noLeftRecursion, Nat.zero_le _,
    (Tree.run_concludes idleEnv_finite idleEnv_noLeftRecursion marked ⟨some 0, 0⟩ idlers {}
      (Nat.zero_le _)).1⟩

end Nest

end RecordGrammar
