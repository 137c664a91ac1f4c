import RecordGrammar.Match.Run

namespace RecordGrammar

/-! Runs that go the same way side by side.

A run looks at its environment, at the leaves and at the index of its state. So a relation between
states that gives away the index and that every single change of a state keeps is kept by whole
runs, which then end alike. With one and the same run on both sides, this is about what a run
preserves. -/

/-- Two outcomes that differ in no more than their states, which are related. `caused` tells which
faults may come up. -/
inductive Outcome.Parallel (related : MatchState → MatchState → Prop) (caused : Fault → Prop) :
    Outcome → Outcome → Prop
  | matched (states : related state other) :
      Parallel related caused (.matched bindings state) (.matched bindings other)
  | failed (states : related state other) :
      Parallel related caused (.failed mismatch state) (.failed mismatch other)
  | faulted (reason : caused fault) (states : related state other) :
      Parallel related caused (.faulted fault state) (.faulted fault other)
  | broken (states : related state other) :
      Parallel related caused (.broken breach state) (.broken breach other)
  | exhausted : Parallel related caused .exhausted .exhausted

namespace Tree

/-- Each of some trees stands where it should, one after the other. -/
def InRow (stands : Site → Tree → Prop) : Site → List Tree → Prop
  | _, [] => True
  | site, tree :: rest => stands site tree ∧ InRow stands (site.after tree) rest

/-- Where a tree may stand, so may all that a run of it comes to. -/
structure Reaches (env : Environment) (stands : Site → Tree → Prop) : Prop where
  members : stands site (.sequence trees) → InRow stands site trees
  branches : stands site (.alternation trees) → InRow stands site trees
  inner : ∀ {inner : Tree}, stands site (.repetition inner bound) → stands site inner
  root : env.root shape = .ok tree → stands ⟨some shape, 0⟩ tree

theorem reaches_anywhere (env : Environment) : Reaches env fun _ _ => True := by
  have inRow (site : Site) (trees : List Tree) : InRow (fun _ _ => True) site trees := by
    induction trees generalizing site with
    | nil => trivial
    | cons tree rest ih => exact ⟨trivial, ih (site.after tree)⟩
  exact ⟨fun _ => inRow _ _, fun _ => inRow _ _, fun _ => trivial, fun _ => trivial⟩

/-- What two environments have in common where a tree may stand, and what a relation between states
has to put up with. -/
structure Alongside (env other : Environment) (stream : TokenStream) (stands : Site → Tree → Prop)
    (related : MatchState → MatchState → Prop) (caused : Fault → Prop) :
    Prop extends Reaches env stands where
  resolveEq : stands site (.reference target field) →
    env.resolve site target = other.resolve site target
  rootEq : env.root = other.root
  freshEq : env.fresh = other.fresh
  fillEq : env.fill = other.fill
  resolveError : env.resolve site target = .error fault → caused fault
  rootError : env.root shape = .error fault → caused fault
  freshError : env.fresh shape = .error fault → caused fault
  bindingError : ∀ error, caused (.binding error)
  index : related state next → state.index = next.index
  goto : ∀ {state next : MatchState} {index : Nat}, related state next → index ≤ stream.size →
    related (state.goto index) (next.goto index)
  expect : related state next → ∀ wanted,
    related { state with cursor := state.cursor.expect wanted }
      { next with cursor := next.cursor.expect wanted }
  advance : related state next →
    related { state with cursor := state.cursor.advance stream }
      { next with cursor := next.cursor.advance stream }
  reached : stands site (.reference target field) → env.resolve site target = .ok shape →
    related state next →
    related (state.note (.reached site shape)) (next.note (.reached site shape))
  made : ∀ shape, related state next → related (state.note (.made shape)) (next.note (.made shape))

end Tree

namespace Outcome.Parallel

variable {related : MatchState → MatchState → Prop} {caused : Fault → Prop} {stream : TokenStream}
  {left right : Outcome}

theorem prepend (parallel : Parallel related caused left right) (bindings : List Binding) :
    Parallel related caused (left.prepend bindings) (right.prepend bindings) := by
  cases parallel with
  | matched states => exact .matched states
  | failed states => exact .failed states
  | faulted reason states => exact .faulted reason states
  | broken states => exact .broken states
  | exhausted => exact .exhausted

theorem resume
    (goto : ∀ {state other : MatchState} {index : Nat}, related state other → index ≤ stream.size →
      related (state.goto index) (other.goto index)) {state other : MatchState}
    (states : related state other) (checkpoint : Nat) {next after : MatchState → Outcome}
    (further : ∀ back forth, related back forth →
      Parallel related caused (next back) (after forth)) :
    Parallel related caused (state.resume stream checkpoint next)
      (other.resume stream checkpoint after) := by
  by_cases within : checkpoint ≤ stream.size
  · rw [state.resume_eq _ within, other.resume_eq _ within]
    exact further _ _ (goto states within)
  · have outside (state : MatchState) :
        state.restore stream checkpoint = .error (.badCheckpoint checkpoint) := by
      have forbidden : ¬ ((0 : Int) ≤ checkpoint ∧ (checkpoint : Int) ≤ stream.size) := by omega
      simp only [MatchState.restore, Cursor.restore, if_neg forbidden, Except.map]
    simp only [MatchState.resume, outside]
    exact .broken states

theorem orRestore (goto : ∀ {state other : MatchState} {index : Nat}, related state other →
      index ≤ stream.size → related (state.goto index) (other.goto index))
    (parallel : Parallel related caused left right) (checkpoint : Nat) :
    Parallel related caused (left.orRestore stream checkpoint)
      (right.orRestore stream checkpoint) := by
  cases parallel with
  | failed states => exact resume goto states checkpoint fun back forth states => .failed states
  | matched states => exact .matched states
  | faulted reason states => exact .faulted reason states
  | broken states => exact .broken states
  | exhausted => exact .exhausted

end Outcome.Parallel

namespace Tree

section Parallel

variable {env other : Environment} {stream : TokenStream} {stands : Site → Tree → Prop}
  {related : MatchState → MatchState → Prop} {caused : Fault → Prop}
  {left right : Site → Tree → MatchState → Outcome}

/-- Two ways of running trees that take related states to outcomes alike. -/
def Together (stands : Site → Tree → Prop) (related : MatchState → MatchState → Prop)
    (caused : Fault → Prop) (left right : Site → Tree → MatchState → Outcome) : Prop :=
  ∀ site tree state next, stands site tree → related state next →
    (left site tree state).Parallel related caused (right site tree next)

theorem leaf_parallel (alongside : Alongside env other stream stands related caused) (taker : Leaf)
    {state next : MatchState} (states : related state next) :
    (taker.run stream state).Parallel related caused (taker.run stream next) := by
  have here : state.cursor.index = next.cursor.index := alongside.index states
  have refused (message wanted : String) :
      (Leaf.refuse stream message wanted state).Parallel related caused
        (Leaf.refuse stream message wanted next) := by
    simp only [Leaf.refuse, Cursor.mismatch, Cursor.position?, Cursor.current?,
      MatchState.index, here]
    exact .failed (alongside.expect states wanted)
  simp only [Leaf.run, Cursor.current?, here]
  split
  · exact refused _ _
  · split
    · exact .matched (alongside.advance states)
    · exact refused _ _

theorem inOrder_parallel (together : Together stands related caused left right) {site : Site}
    {members : List Tree} {state next : MatchState} (standing : InRow stands site members)
    (states : related state next) :
    (inOrder left site members state).Parallel related caused
      (inOrder right site members next) := by
  induction members generalizing site state next with
  | nil => exact .matched states
  | cons member rest ih =>
      obtain ⟨first, later⟩ := standing
      have parallel := together site member state next first states
      simp only [inOrder]
      generalize left site member state = leftOutcome at parallel
      generalize right site member next = rightOutcome at parallel
      cases parallel with
      | matched states => exact (ih later states).prepend _
      | failed states => exact .failed states
      | faulted reason states => exact .faulted reason states
      | broken states => exact .broken states
      | exhausted => exact .exhausted

theorem firstOf_parallel (alongside : Alongside env other stream stands related caused)
    (together : Together stands related caused left right)
    {leftFallback rightFallback : MatchState → Outcome} (falls : ∀ state next, related state next →
      (leftFallback state).Parallel related caused (rightFallback next))
    {site : Site} {branches : List Tree} {state next : MatchState}
    (standing : InRow stands site branches) (states : related state next) :
    (firstOf stream left leftFallback site branches state).Parallel related caused
      (firstOf stream right rightFallback site branches next) := by
  induction branches generalizing site state next with
  | nil => exact falls state next states
  | cons branch rest ih =>
      obtain ⟨first, later⟩ := standing
      have parallel := together site branch state next first states
      simp only [firstOf, ← alongside.index states]
      generalize left site branch state = leftOutcome at parallel
      generalize right site branch next = rightOutcome at parallel
      cases parallel with
      | failed states =>
          exact .resume alongside.goto states _ fun back forth states => ih later states
      | matched states => exact .matched states
      | faulted reason states => exact .faulted reason states
      | broken states => exact .broken states
      | exhausted => exact .exhausted

theorem endTurns_parallel (alongside : Alongside env other stream stands related caused)
    (bound : Bound) (entry taken : Nat) (failure : Option Mismatch) {state next : MatchState}
    (states : related state next) :
    (endTurns stream bound entry taken failure state).Parallel related caused
      (endTurns stream bound entry taken failure next) := by
  unfold endTurns
  split
  · refine .resume alongside.goto states entry fun back forth states => ?_
    cases failure with
    | some mismatch => exact .failed states
    | none => exact .broken states
  · exact .matched states

theorem turns_parallel (alongside : Alongside env other stream stands related caused)
    {left right : MatchState → Outcome}
    (together : ∀ state next, related state next →
      (left state).Parallel related caused (right next))
    (bound : Bound) (entry fuel taken : Nat) {state next : MatchState}
    (states : related state next) :
    (turns stream left bound entry fuel taken state).Parallel related caused
      (turns stream right bound entry fuel taken next) := by
  induction fuel generalizing taken state next with
  | zero =>
      simp only [turns]
      split
      · exact .exhausted
      · exact endTurns_parallel alongside bound entry taken none states
  | succ fuel ih =>
      have parallel := together state next states
      simp only [turns]
      split
      · generalize left state = leftOutcome at parallel
        generalize right next = rightOutcome at parallel
        cases parallel with
        | @matched leftState rightState bindings turned =>
            simp only [← alongside.index states, ← alongside.index turned]
            split
            · exact (endTurns_parallel alongside bound entry (taken + 1) none turned).prepend
                bindings
            · exact (ih (taken + 1) turned).prepend bindings
        | failed turned =>
            simp only [← alongside.index states]
            exact .resume alongside.goto turned _ fun back forth states =>
              endTurns_parallel alongside bound entry taken _ states
        | faulted reason states => exact .faulted reason states
        | broken states => exact .broken states
        | exhausted => exact .exhausted
      · exact endTurns_parallel alongside bound entry taken none states

theorem complete_parallel (alongside : Alongside env other stream stands related caused)
    (shape : ShapeId) (field : Field) (bindings : List Binding) {state next : MatchState}
    (states : related state next) :
    (complete env shape field bindings state).Parallel related caused
      (complete other shape field bindings next) := by
  have noted := alongside.made shape states
  unfold complete
  rw [← alongside.freshEq, ← alongside.fillEq]
  cases made : env.fresh shape with
  | error fault => exact .faulted (alongside.freshError made) noted
  | ok blank =>
      simp only
      cases env.fill bindings blank with
      | error error => exact .faulted (alongside.bindingError error) noted
      | ok item => exact .matched noted

theorem runNode_parallel (alongside : Alongside env other stream stands related caused)
    (together : Together stands related caused left right) :
    Together stands related caused (runNode env stream left) (runNode other stream right) := by
  intro site tree state next standing states
  have here := alongside.index states
  cases tree with
  | empty => exact .matched states
  | leaf taker => exact leaf_parallel alongside taker states
  | sequence members =>
      simp only [runNode, ← here]
      exact (inOrder_parallel together (alongside.members standing) states).orRestore
        alongside.goto _
  | alternation branches =>
      refine firstOf_parallel alongside together (fun back forth states => ?_)
        (alongside.branches standing) states
      have same := alongside.index states
      simp only [Cursor.mismatch, Cursor.position?, Cursor.current?]
      rw [show back.cursor.index = forth.cursor.index from same, here]
      exact .failed states
  | repetition inner bound =>
      simp only [runNode, repeated, ← here]
      exact turns_parallel alongside (fun state next states => together site inner state next
        (alongside.inner standing) states) bound _ _ 0 states
  | reference target field =>
      simp only [runNode, ← here, ← alongside.resolveEq standing, ← alongside.rootEq]
      cases resolved : env.resolve site target with
      | error fault => exact .faulted (alongside.resolveError resolved) states
      | ok shape =>
          have noted := alongside.reached standing resolved states
          simp only
          cases built : env.root shape with
          | error fault => exact .faulted (alongside.rootError built) noted
          | ok root =>
              have parallel := together _ root _ _ (alongside.root built) noted
              simp only
              generalize left ⟨some shape, 0⟩ root (state.note (.reached site shape)) =
                leftOutcome at parallel
              generalize right ⟨some shape, 0⟩ root (next.note (.reached site shape)) =
                rightOutcome at parallel
              cases parallel with
              | matched states => exact complete_parallel alongside shape field _ states
              | failed states => exact (Outcome.Parallel.failed states).orRestore alongside.goto _
              | faulted reason states => exact .faulted reason states
              | broken states => exact .broken states
              | exhausted => exact .exhausted

/-- Runs with the same fuel go alongside one another. -/
theorem run_parallel (alongside : Alongside env other stream stands related caused) (fuel : Nat) :
    Together stands related caused (run env stream fuel) (run other stream fuel) := by
  induction fuel with
  | zero =>
      intro site tree state next _ _
      exact .exhausted
  | succ fuel ih => exact runNode_parallel alongside ih

end Parallel

end Tree

section Events

/-- The events that are noted when a match ends, the latest first. -/
def Outcome.trace : Outcome → List Event
  | .matched _ state | .failed _ state | .faulted _ state | .broken _ state => state.trace
  | .exhausted => []

/-- The same state, after events of one sort only. -/
def SameAfter (told : Event → Prop) (state other : MatchState) : Prop :=
  state = other ∧ ∀ event ∈ state.trace, told event

variable {told : Event → Prop}

theorem SameAfter.note {state other : MatchState} {event : Event}
    (same : SameAfter told state other) (now : told event) :
    SameAfter told (state.note event) (other.note event) := by
  obtain ⟨rfl, before⟩ := same
  exact ⟨rfl, List.forall_mem_cons.mpr ⟨now, before⟩⟩

/-- Environments that agree where trees stand lead to the same states. The events on the way are of
one sort if those of single references are. -/
theorem Tree.alongside_sameAfter {env other : Environment} {stands : Site → Tree → Prop}
    (stream : TokenStream) (reaches : Reaches env stands)
    (resolveEq : ∀ site target field, stands site (.reference target field) →
      env.resolve site target = other.resolve site target)
    (rootEq : env.root = other.root) (freshEq : env.fresh = other.fresh)
    (fillEq : env.fill = other.fill)
    (reached : ∀ site target field id, stands site (.reference target field) →
      env.resolve site target = .ok id → told (.reached site id))
    (made : ∀ id, told (.made id)) :
    Alongside env other stream stands (SameAfter told) fun _ => True where
  toReaches := reaches
  resolveEq := fun standing => resolveEq _ _ _ standing
  rootEq := rootEq
  freshEq := freshEq
  fillEq := fillEq
  resolveError := fun _ => trivial
  rootError := fun _ => trivial
  freshError := fun _ => trivial
  bindingError := fun _ => trivial
  index := fun same => congrArg MatchState.index same.1
  goto := fun same _ => ⟨congrArg (MatchState.goto · _) same.1, same.2⟩
  expect := fun ⟨same, before⟩ wanted => ⟨by rw [same], before⟩
  advance := fun ⟨same, before⟩ => ⟨by rw [same], before⟩
  reached := fun standing resolved same => same.note (reached _ _ _ _ standing resolved)
  made := fun id same => same.note (made id)

namespace Outcome.Parallel

variable {caused : Fault → Prop} {left right : Outcome}

theorem eq_of_sameAfter (parallel : left.Parallel (SameAfter told) caused right) :
    left = right := by
  cases parallel with
  | matched same | failed same | faulted _ same | broken same => rw [same.1]
  | exhausted => rfl

theorem told_of_sameAfter (parallel : left.Parallel (SameAfter told) caused right) :
    ∀ event ∈ left.trace, told event := by
  cases parallel with
  | matched same | failed same | faulted _ same | broken same => exact same.2
  | exhausted => simp [trace]

end Outcome.Parallel

end Events

end RecordGrammar
