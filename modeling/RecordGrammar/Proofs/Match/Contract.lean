import RecordGrammar.Match.Run

namespace RecordGrammar

/-! Nothing leaks from a match.

Every node that can fail goes back to where it began before it does so, and a node that succeeds
stands behind tokens of which none marks the end. Going back is always possible, and a group that
fails always has a turn to blame. All of this is one property of outcomes, which every way of
putting runs together keeps.
-/

namespace TokenStream

/-- Every token from one index up to another is there, and none of them marks the end. -/
structure Passes (stream : TokenStream) (first last : Nat) : Prop where
  ordered : first ≤ last
  unmarked : ∀ index, first ≤ index → index < last →
    ∃ token, stream.token? index = some token ∧ token.isEnd = false

theorem last_token (stream : TokenStream) :
    ∃ token, stream.token? (stream.size - 1) = some token ∧ token.isEnd = true := by
  obtain ⟨token, found, marked⟩ := stream.ended
  exact ⟨token, by simpa only [token?, size, Array.back?] using found, marked⟩

namespace Passes

variable {stream : TokenStream} {first middle last : Nat}

theorem refl (stream : TokenStream) (index : Nat) : stream.Passes index index where
  ordered := Nat.le_refl index
  unmarked := fun _ lower upper => by omega

theorem trans (before : stream.Passes first middle) (after : stream.Passes middle last) :
    stream.Passes first last where
  ordered := Nat.le_trans before.ordered after.ordered
  unmarked := fun index lower upper => by
    rcases Nat.lt_or_ge index middle with early | late
    · exact before.unmarked index lower early
    · exact after.unmarked index late upper

theorem one {token : Token} (found : stream.token? first = some token)
    (unmarked : token.isEnd = false) : stream.Passes first (first + 1) where
  ordered := Nat.le_succ first
  unmarked := fun index lower upper => by
    have same : index = first := by omega
    exact ⟨token, same ▸ found, unmarked⟩

/-- The last token marks the end, so it is never passed. -/
theorem lt_size (passed : stream.Passes first last) (inside : first < stream.size) :
    last < stream.size := by
  rcases Nat.lt_or_ge last stream.size with before | beyond
  · exact before
  · obtain ⟨token, found, unmarked⟩ := passed.unmarked (stream.size - 1) (by omega) (by omega)
    obtain ⟨final, finalFound, marked⟩ := stream.last_token
    have same : token = final := Option.some.inj (found.symm.trans finalFound)
    rw [same, marked] at unmarked
    contradiction

theorem le_size (passed : stream.Passes first last) (within : first ≤ stream.size) :
    last ≤ stream.size := by
  rcases Nat.lt_or_ge first stream.size with inside | behind
  · exact Nat.le_of_lt (passed.lt_size inside)
  · rcases Nat.lt_or_ge first last with moved | still
    · obtain ⟨token, found, _⟩ := passed.unmarked first (Nat.le_refl first) moved
      have absent : stream.token? first = none := Array.getElem?_eq_none behind
      rw [absent] at found
      contradiction
    · omega

end Passes

end TokenStream

namespace Outcome

/-- What a match owes to the state that it began in. -/
def Keeps (stream : TokenStream) (start : MatchState) : Outcome → Prop
  | .matched _ state =>
      stream.Passes start.index state.index ∧ start.cursor.furthest ≤ state.cursor.furthest
  | .failed _ state =>
      state.index = start.index ∧ start.cursor.furthest ≤ state.cursor.furthest
  | .faulted _ state => start.cursor.furthest ≤ state.cursor.furthest
  | .broken _ _ => False
  | .exhausted => True

variable {stream : TokenStream} {start middle : MatchState}

theorem Keeps.prepend {outcome : Outcome} (keeps : outcome.Keeps stream start)
    (bindings : List Binding) : (outcome.prepend bindings).Keeps stream start := by
  cases outcome <;> exact keeps

/-- An outcome that keeps to a state on the way keeps to the start as well, once a failure has gone
back there. -/
theorem Keeps.orRestore {outcome : Outcome} (within : start.index ≤ stream.size)
    (passed : stream.Passes start.index middle.index)
    (further : start.cursor.furthest ≤ middle.cursor.furthest)
    (keeps : outcome.Keeps stream middle) :
    (outcome.orRestore stream start.index).Keeps stream start := by
  cases outcome with
  | matched bindings state =>
      exact ⟨passed.trans keeps.1, Nat.le_trans further keeps.2⟩
  | failed mismatch state =>
      simp only [Outcome.orRestore, state.resume_eq _ within]
      exact ⟨rfl, Nat.le_trans further keeps.2⟩
  | faulted fault state => exact Nat.le_trans further keeps
  | broken breach state => exact keeps.elim
  | exhausted => trivial

theorem orRestore_prepend (outcome : Outcome) (bindings : List Binding) (checkpoint : Nat) :
    (outcome.prepend bindings).orRestore stream checkpoint =
      (outcome.orRestore stream checkpoint).prepend bindings := by
  cases outcome with
  | failed mismatch state =>
      simp only [Outcome.prepend, Outcome.orRestore, MatchState.resume]
      cases state.restore stream checkpoint <;> rfl
  | _ => rfl

end Outcome

theorem Leaf.run_keeps (stream : TokenStream) (leaf : Leaf) (state : MatchState) :
    (leaf.run stream state).Keeps stream state := by
  have refused (message wanted : String) :
      (Leaf.refuse stream message wanted state).Keeps stream state :=
    ⟨state.cursor.expect_index wanted, state.cursor.le_expect_furthest wanted⟩
  unfold Leaf.run
  split
  · exact refused _ _
  · rename_i token found
    obtain ⟨current, accepted⟩ := Option.filter_eq_some_iff.mp found
    split
    · have unmarked : token.isEnd = false := by simp_all
      have passed : stream.Passes state.index (state.index + 1) := .one current unmarked
      have present : state.cursor.index < stream.size := (Array.getElem?_eq_some_iff.mp current).1
      simp only [Outcome.Keeps, Cursor.advance, if_pos present]
      exact ⟨passed, Nat.le_refl _⟩
    · exact refused _ _

namespace Bound

theorem least_le_one (bound : Bound) : bound.least ≤ 1 := by
  cases bound <;> decide

/-- Where no more turns are allowed, those that were needed have been taken. -/
theorem least_le_of_not_allows {bound : Bound} {taken : Nat}
    (full : ¬ bound.allows taken = true) : bound.least ≤ taken := by
  cases bound with
  | once =>
      simp only [allows, most, Option.all_some, decide_eq_true_eq] at full
      simp only [least]
      omega
  | onceOrMore => simp [allows, most] at full
  | optional | optionalOrMore => exact Nat.zero_le taken

end Bound

namespace Tree

variable {stream : TokenStream} {start state : MatchState}

/-- A way of running trees of which every outcome keeps to the state that it began in. -/
def Kept (stream : TokenStream) (step : Site → Tree → MatchState → Outcome) : Prop :=
  ∀ site tree state, state.index ≤ stream.size → (step site tree state).Keeps stream state

theorem inOrder_keeps {step : Site → Tree → MatchState → Outcome} (kept : Kept stream step)
    (site : Site) (members : List Tree) (within : start.index ≤ stream.size)
    (passed : stream.Passes start.index state.index)
    (further : start.cursor.furthest ≤ state.cursor.furthest) :
    ((inOrder step site members state).orRestore stream start.index).Keeps stream start := by
  induction members generalizing site state with
  | nil => exact ⟨passed, further⟩
  | cons member rest ih =>
      have first := kept site member state (passed.le_size within)
      simp only [inOrder]
      cases ran : step site member state with
      | matched bindings next =>
          rw [ran] at first
          simp only [Outcome.orRestore_prepend]
          exact (ih _ (passed.trans first.1) (Nat.le_trans further first.2)).prepend bindings
      | _ => exact (ran ▸ first).orRestore within passed further

theorem firstOf_keeps {step : Site → Tree → MatchState → Outcome} (kept : Kept stream step)
    {fallback : MatchState → Outcome}
    (falls : ∀ state : MatchState, state.index = start.index →
      start.cursor.furthest ≤ state.cursor.furthest → (fallback state).Keeps stream start)
    (site : Site) (branches : List Tree) (within : start.index ≤ stream.size)
    (here : state.index = start.index)
    (further : start.cursor.furthest ≤ state.cursor.furthest) :
    (firstOf stream step fallback site branches state).Keeps stream start := by
  induction branches generalizing site state with
  | nil => exact falls state here further
  | cons branch rest ih =>
      have first := kept site branch state (here ▸ within)
      have kept' : ((step site branch state).orRestore stream start.index).Keeps stream start :=
        first.orRestore within (here ▸ .refl stream state.index) further
      simp only [firstOf]
      cases ran : step site branch state with
      | failed mismatch next =>
          rw [ran] at first
          simp only [next.resume_eq _ (here ▸ within)]
          exact ih _ here (Nat.le_trans further first.2)
      | _ => simpa only [ran, Outcome.orRestore] using kept'

/-- A group that has had its turns, or has a turn to blame, ends as it should. -/
theorem endTurns_keeps {bound : Bound} {taken : Nat} {failure : Option Mismatch}
    (within : start.index ≤ stream.size) (passed : stream.Passes start.index state.index)
    (further : start.cursor.furthest ≤ state.cursor.furthest)
    (blamed : taken < bound.least → failure ≠ none) :
    (endTurns stream bound start.index taken failure state).Keeps stream start := by
  unfold endTurns
  split
  · rename_i few
    cases failure with
    | none => exact absurd rfl (blamed few)
    | some mismatch =>
        simp only [state.resume_eq _ within]
        exact ⟨rfl, further⟩
  · exact ⟨passed, further⟩

theorem turns_eq_endTurns {step : MatchState → Outcome} {bound : Bound} {taken : Nat}
    (entry fuel : Nat) (state : MatchState) (full : bound.allows taken = false) :
    turns stream step bound entry fuel taken state =
      endTurns stream bound entry taken none state := by
  cases fuel <;> simp only [turns, full, Bool.false_eq_true, if_false]

theorem turns_keeps {step : MatchState → Outcome}
    (kept : ∀ state, state.index ≤ stream.size → (step state).Keeps stream state)
    (bound : Bound) (fuel taken : Nat) (within : start.index ≤ stream.size)
    (passed : stream.Passes start.index state.index)
    (further : start.cursor.furthest ≤ state.cursor.furthest) :
    (turns stream step bound start.index fuel taken state).Keeps stream start := by
  induction fuel generalizing taken state with
  | zero =>
      simp only [turns]
      split
      · trivial
      · rename_i full
        exact endTurns_keeps within passed further
          (fun few => absurd few (Nat.not_lt.mpr (Bound.least_le_of_not_allows full)))
  | succ fuel ih =>
      simp only [turns]
      split
      · have turn := kept state (passed.le_size within)
        cases ran : step state with
        | matched bindings next =>
            rw [ran] at turn
            have onward := passed.trans turn.1
            have later := Nat.le_trans further turn.2
            simp only
            split
            · have enough : bound.least ≤ taken + 1 := Nat.le_trans bound.least_le_one (by omega)
              exact (endTurns_keeps within onward later
                (fun few => absurd few (Nat.not_lt.mpr enough))).prepend bindings
            · exact (ih (taken + 1) onward later).prepend bindings
        | failed mismatch next =>
            rw [ran] at turn
            simp only [next.resume_eq _ (passed.le_size within)]
            exact endTurns_keeps within passed (Nat.le_trans further turn.2) (fun _ => by simp)
        | faulted fault next =>
            rw [ran] at turn
            exact Nat.le_trans further turn
        | broken breach next =>
            rw [ran] at turn
            exact turn.elim
        | exhausted => trivial
      · rename_i full
        exact endTurns_keeps within passed further
          (fun few => absurd few (Nat.not_lt.mpr (Bound.least_le_of_not_allows full)))

theorem complete_keeps (env : Environment) (shape : ShapeId) (field : Field)
    (bindings : List Binding) (passed : stream.Passes start.index state.index)
    (further : start.cursor.furthest ≤ state.cursor.furthest) :
    (complete env shape field bindings state).Keeps stream start := by
  unfold complete
  simp only
  split
  · exact further
  · split
    · exact further
    · exact ⟨passed, further⟩

theorem runNode_keeps (env : Environment) {step : Site → Tree → MatchState → Outcome}
    (kept : Kept stream step) : Kept stream (runNode env stream step) := by
  intro site tree state within
  have here := TokenStream.Passes.refl stream state.index
  have still := Nat.le_refl state.cursor.furthest
  cases tree with
  | empty => exact ⟨here, still⟩
  | leaf taker => exact taker.run_keeps stream state
  | sequence members => exact inOrder_keeps kept site members within here still
  | alternation branches =>
      refine firstOf_keeps kept ?_ site branches within rfl still
      intro next back further
      exact ⟨back, further⟩
  | repetition inner bound => exact turns_keeps (kept site inner) bound _ 0 within here still
  | reference target field =>
      simp only [runNode]
      cases resolved : env.resolve site target with
      | error fault => exact still
      | ok shape =>
          simp only
          cases built : env.root shape with
          | error fault => exact still
          | ok root =>
              have nested := kept ⟨some shape, 0⟩ root (state.note (.reached site shape)) within
              simp only
              cases ran : step ⟨some shape, 0⟩ root (state.note (.reached site shape)) with
              | matched bindings next =>
                  rw [ran] at nested
                  exact complete_keeps env shape field bindings nested.1 nested.2
              | _ => exact (ran ▸ nested).orRestore within here still

/-- Every run keeps to the state that it began in. -/
theorem run_keeps (env : Environment) (stream : TokenStream) (fuel : Nat) :
    Kept stream (run env stream fuel) := by
  induction fuel with
  | zero =>
      intro site tree state within
      trivial
  | succ fuel ih => exact runNode_keeps env ih

/-- Nothing leaks from a match. One that fails leaves the cursor where it began; one that succeeds
leaves it behind tokens that are all there and of which none marks the end, so within the stream.
The furthest failure never moves back, no match goes back to a place outside of the stream, and a
group with too few turns has a mismatch to fail with. -/
theorem run_leaks_nothing (env : Environment) (stream : TokenStream) (fuel : Nat) (site : Site)
    (tree : Tree) (state : MatchState) (inside : state.index < stream.size) :
    match run env stream fuel site tree state with
    | .matched _ next =>
        state.index ≤ next.index ∧ next.index < stream.size ∧
        (∀ index, state.index ≤ index → index < next.index →
          ∃ token, stream.token? index = some token ∧ token.isEnd = false) ∧
        state.cursor.furthest ≤ next.cursor.furthest
    | .failed _ next =>
        next.index = state.index ∧ state.cursor.furthest ≤ next.cursor.furthest
    | .faulted _ next => state.cursor.furthest ≤ next.cursor.furthest
    | .broken _ _ => False
    | .exhausted => True := by
  have keeps := run_keeps env stream fuel site tree state (Nat.le_of_lt inside)
  cases ran : run env stream fuel site tree state with
  | matched bindings next =>
      rw [ran] at keeps
      obtain ⟨passed, further⟩ := keeps
      exact ⟨passed.ordered, passed.lt_size inside, passed.unmarked, further⟩
  | _ =>
      rw [ran] at keeps
      exact keeps

end Tree

/-! As an example, a shape whose records may hold one another between parentheses. -/

namespace Nest

def field : Field where
  name := "inner"
  rule := "('(' @@ ')')?"

def group : Tree :=
  .sequence [.leaf (.literal "(" field), .reference (.shape 0 "Nest") field,
    .leaf (.literal ")" field)]

def env : Environment where
  resolve := fun _ _ => .ok 0
  root := fun _ => .ok (.repetition group .optional)
  fresh := fun _ => .ok (.entity (.record 0) "Nest" none [("inner", .null)])
  fill := Binding.applyAll

def mark (text : String) (index : Nat) : Token where
  kind := some .operator
  text := .ofString text
  position := { line := 1, column := index, index := index }

def finish (index : Nat) : Token where
  kind := some .endOfText
  text := .ofString ""
  position := { line := 1, column := index, index := index }

/-- The tokens of a text in which the outer parenthesis is never closed. -/
def unclosed : TokenStream where
  tokens := #[mark "(" 0, mark "(" 1, mark ")" 2, finish 3]
  ended := ⟨finish 3, rfl, rfl⟩

end Nest

/-- The inner parentheses match, but the outer ones do not, and so the cursor is back in front. -/
theorem Nest.unclosed_leaks_nothing :
    0 < Nest.unclosed.size ∧
      ∃ mismatch next, Nest.group.run Nest.env Nest.unclosed 9 ⟨none, 0⟩ {} =
        .failed mismatch next ∧ next.index = 0 := by
  have kept := Tree.run_leaks_nothing Nest.env Nest.unclosed 9 ⟨none, 0⟩ Nest.group {} (by decide)
  obtain ⟨mismatch, next, ran⟩ : ∃ mismatch next,
      Nest.group.run Nest.env Nest.unclosed 9 ⟨none, 0⟩ {} = .failed mismatch next := ⟨_, _, rfl⟩
  rw [ran] at kept
  exact ⟨by decide, mismatch, next, ran, kept.1⟩

end RecordGrammar
