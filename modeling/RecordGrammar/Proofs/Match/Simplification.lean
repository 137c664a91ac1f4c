import RecordGrammar.Proofs.Match.Fuel
import RecordGrammar.Proofs.Tree.Accepted
import RecordGrammar.Proofs.Tree.NormalForm

namespace RecordGrammar

/-! Simplifying a tree does not change what it matches.

A sequence of one member, a group that is matched exactly once and an alternation of one branch run
like what they hold, because that goes back by itself when it fails. The alternation alone says
something else about the failure. The rest is a matter of running like parts in like ways.
-/

/-- Two runs end alike: in the same state, with the same bindings or the same fault. Of failures
only the mismatch may differ, and not even that if the runs have to be `exact`. -/
inductive Outcome.Agrees (exact : Prop) : Outcome → Outcome → Prop
  | same (outcome : Outcome) : Agrees exact outcome outcome
  | failed (mismatch other : Mismatch) (state : MatchState) (alike : exact → mismatch = other) :
      Agrees exact (.failed mismatch state) (.failed other state)

namespace Outcome.Agrees

variable {exact : Prop} {stream : TokenStream} {left middle right : Outcome}

theorem trans (first : Agrees exact left middle) (second : Agrees exact middle right) :
    Agrees exact left right := by
  cases first with
  | same => exact second
  | failed mismatch other state alike =>
      cases second with
      | same => exact .failed mismatch other state alike
      | failed _ last _ also =>
          exact .failed mismatch last state (fun holds => (alike holds).trans (also holds))

theorem ended_iff (agrees : Agrees exact left right) : left ≠ .exhausted ↔ right ≠ .exhausted := by
  cases agrees with
  | same => rfl
  | failed => simp

theorem prepend (agrees : Agrees exact left right) (bindings : List Binding) :
    Agrees exact (left.prepend bindings) (right.prepend bindings) := by
  cases agrees with
  | same => exact .same _
  | failed mismatch other state alike => exact .failed mismatch other state alike

theorem orRestore (agrees : Agrees exact left right) (checkpoint : Nat) :
    Agrees exact (left.orRestore stream checkpoint) (right.orRestore stream checkpoint) := by
  cases agrees with
  | same => exact .same _
  | failed mismatch other state alike =>
      simp only [Outcome.orRestore, MatchState.resume]
      cases state.restore stream checkpoint with
      | ok back => exact .failed mismatch other back alike
      | error error => exact .same _

end Outcome.Agrees

theorem Site.after_simplify (site : Site) (tree : Tree) :
    site.after tree.simplify = site.after tree := by
  rw [Site.after, Site.after, tree.referenceCount_simplify]

namespace Tree

variable {exact : Prop} {env : Environment} {stream : TokenStream}

/-- A tree runs like its simplified form. -/
def RunsSimplified (exact : Prop) (env : Environment) (stream : TokenStream) (tree : Tree) : Prop :=
  ∀ site state, state.index ≤ stream.size →
    (outcome env stream site tree state).Agrees exact (outcome env stream site tree.simplify state)

theorem inOrder_agrees {members : List Tree}
    (alike : ∀ member ∈ members, RunsSimplified exact env stream member)
    (site : Site) (state : MatchState) (within : state.index ≤ stream.size) :
    (inOrder (outcome env stream) site members state).Agrees exact
      (inOrder (outcome env stream) site (members.map simplify) state) := by
  induction members generalizing site state with
  | nil => exact .same _
  | cons member rest ih =>
      have first := alike member (by simp) site state within
      have keeps := outcome_keeps env stream site member state within
      simp only [List.map_cons, inOrder]
      generalize outcome env stream site member state = left at first keeps
      generalize outcome env stream site member.simplify state = right at first
      cases first with
      | same =>
          cases left with
          | matched bindings next =>
              simp only [site.after_simplify]
              exact (ih (fun tree inside => alike tree (by simp [inside])) _ next
                (keeps.1.le_size within)).prepend bindings
          | _ => exact .same _
      | failed mismatch other next alike => exact .failed mismatch other next alike

theorem firstOf_agrees {branches : List Tree}
    (alike : ∀ branch ∈ branches, RunsSimplified exact env stream branch)
    (fallback : MatchState → Outcome) (site : Site) (state : MatchState)
    (within : state.index ≤ stream.size) :
    (firstOf stream (outcome env stream) fallback site branches state).Agrees exact
      (firstOf stream (outcome env stream) fallback site (branches.map simplify) state) := by
  induction branches generalizing site state with
  | nil => exact .same _
  | cons branch rest ih =>
      have first := alike branch (by simp) site state within
      have later (next : MatchState) := ih (fun tree inside => alike tree (by simp [inside]))
        (site.after branch) (next.goto state.index) within
      simp only [List.map_cons, firstOf, site.after_simplify]
      generalize outcome env stream site branch state = left at first
      generalize outcome env stream site branch.simplify state = right at first
      cases first with
      | same =>
          cases left with
          | failed mismatch next =>
              simp only [next.resume_eq _ within]
              exact later next
          | _ => exact .same _
      | failed mismatch other next _ =>
          simp only [next.resume_eq _ within]
          exact later next

theorem endTurns_agrees {mismatch other : Mismatch} (alike : exact → mismatch = other)
    (bound : Bound) (entry taken : Nat) (state : MatchState) :
    (endTurns stream bound entry taken (some mismatch) state).Agrees exact
      (endTurns stream bound entry taken (some other) state) := by
  unfold endTurns MatchState.resume
  split
  · cases state.restore stream entry with
    | ok back => exact .failed mismatch other back alike
    | error error => exact .same _
  · exact .same _

theorem turns_agrees {left right : MatchState → Outcome}
    (agrees : ∀ state, state.index ≤ stream.size → (left state).Agrees exact (right state))
    (kept : ∀ state, state.index ≤ stream.size → (left state).Keeps stream state)
    (bound : Bound) (entry fuel taken : Nat) (state : MatchState)
    (within : state.index ≤ stream.size) :
    (turns stream left bound entry fuel taken state).Agrees exact
      (turns stream right bound entry fuel taken state) := by
  induction fuel generalizing taken state with
  | zero => exact .same _
  | succ fuel ih =>
      have turn := agrees state within
      have keeps := kept state within
      simp only [turns]
      split
      · generalize left state = outcome at turn keeps
        generalize right state = other at turn
        cases turn with
        | same =>
            cases outcome with
            | matched bindings next =>
                simp only
                split
                · exact .same _
                · exact (ih (taken + 1) next (keeps.1.le_size within)).prepend bindings
            | _ => exact .same _
        | failed mismatch other next alike =>
            simp only [next.resume_eq _ within]
            exact endTurns_agrees alike bound entry taken _
      · exact .same _

theorem outcome_sequence_nil (site : Site) (state : MatchState) :
    outcome env stream site (.sequence []) state = outcome env stream site .empty state := by
  rw [outcome_eq, outcome_eq env stream site .empty]
  rfl

theorem outcome_sequence_one (site : Site) (member : Tree) {state : MatchState}
    (within : state.index ≤ stream.size) :
    outcome env stream site (.sequence [member]) state = outcome env stream site member state := by
  have keeps := outcome_keeps env stream site member state within
  rw [outcome_eq]
  simp only [runNode, inOrder]
  cases ran : outcome env stream site member state with
  | matched bindings next =>
      simp only [Outcome.prepend, Outcome.orRestore, List.append_nil]
  | failed mismatch next =>
      rw [ran] at keeps
      simp only [Outcome.orRestore, next.resume_eq _ within, MatchState.goto_eq_self keeps.1]
  | _ => rfl

theorem outcome_repetition_once (site : Site) (inner : Tree) {state : MatchState}
    (within : state.index ≤ stream.size) :
    outcome env stream site (.repetition inner .once) state =
      outcome env stream site inner state := by
  have keeps := outcome_keeps env stream site inner state within
  have allowed : Bound.once.allows 0 = true := rfl
  have full : Bound.once.allows 1 = false := rfl
  have ended (next : MatchState) :
      endTurns stream .once state.index 1 none next = .matched [] next := rfl
  rw [outcome_eq]
  simp only [runNode, repeated, turns, allowed, if_true]
  cases ran : outcome env stream site inner state with
  | matched bindings next =>
      simp only [turns_eq_endTurns _ _ next full, Nat.zero_add, ended, Outcome.prepend,
        List.append_nil, ite_self]
  | failed mismatch next =>
      rw [ran] at keeps
      have few : 0 < Bound.once.least := Nat.one_pos
      simp only [next.resume_eq _ within, MatchState.goto_eq_self keeps.1, endTurns, if_pos few]
  | _ => rfl

/-- An alternation of one branch has its own words for a failure. -/
theorem outcome_alternation_one (inexact : ¬ exact) (site : Site) (branch : Tree)
    {state : MatchState} (within : state.index ≤ stream.size) :
    (outcome env stream site (.alternation [branch]) state).Agrees exact
      (outcome env stream site branch state) := by
  have keeps := outcome_keeps env stream site branch state within
  rw [outcome_eq]
  simp only [runNode, firstOf]
  cases ran : outcome env stream site branch state with
  | failed mismatch next =>
      rw [ran] at keeps
      simp only [next.resume_eq _ within, MatchState.goto_eq_self keeps.1]
      exact .failed _ mismatch next (fun holds => absurd holds inexact)
  | _ => exact .same _

/-- No alternation in a tree has just one branch. -/
abbrev NoSoleBranch (tree : Tree) : Prop :=
  tree.Every fun node => ∀ branch, node ≠ .alternation [branch]

theorem noSoleBranch_of_plural {tree : Tree} (plural : tree.Plural) : tree.NoSoleBranch := by
  refine plural.imp fun node several branch sole => ?_
  have two := several [branch] sole
  simp at two

theorem runsSimplified (env : Environment) (stream : TokenStream) (tree : Tree)
    (exactly : exact → tree.NoSoleBranch) : RunsSimplified exact env stream tree := by
  induction tree with
  | empty => exact fun site state _ => .same _
  | leaf taker => exact fun site state _ => .same _
  | reference target field => exact fun site state _ => .same _
  | sequence members ih =>
      have parts (member : Tree) (inside : member ∈ members) :
          RunsSimplified exact env stream member := by
        refine ih member inside (fun holds => ?_)
        cases exactly holds with
        | sequence _ held => exact held member inside
      intro site state within
      match members with
      | [] =>
          rw [outcome_sequence_nil]
          exact .same _
      | [member] =>
          rw [outcome_sequence_one site member within]
          exact parts member (by simp) site state within
      | first :: second :: rest =>
          rw [simplify_sequence (by simp), outcome_eq, outcome_eq env stream site (.sequence _)]
          exact (inOrder_agrees parts site state within).orRestore state.index
  | alternation branches ih =>
      have parts (branch : Tree) (inside : branch ∈ branches) :
          RunsSimplified exact env stream branch := by
        refine ih branch inside (fun holds => ?_)
        cases exactly holds with
        | alternation _ held => exact held branch inside
      intro site state within
      by_cases sole : branches.length = 1
      · obtain ⟨branch, rfl⟩ := List.length_eq_one_iff.mp sole
        have inexact : ¬ exact := by
          intro holds
          cases exactly holds with
          | alternation plural _ => exact plural branch rfl
        exact (outcome_alternation_one inexact site branch within).trans
          (parts branch (by simp) site state within)
      · rw [simplify_alternation sole, outcome_eq, outcome_eq env stream site (.alternation _)]
        simp only [runNode, List.length_map]
        exact firstOf_agrees parts _ site state within
  | repetition inner bound ih =>
      have inside : RunsSimplified exact env stream inner := by
        refine ih (fun holds => ?_)
        cases exactly holds with
        | repetition _ held => exact held
      intro site state within
      by_cases once : bound = .once
      · rw [once, outcome_repetition_once site inner within]
        exact inside site state within
      · rw [simplify_repetition inner once, outcome_eq,
          outcome_eq env stream site (.repetition _ _)]
        exact turns_agrees (inside site)
          (outcome_keeps env stream site inner) bound _ _ 0 state within

/-- Simplifying preserves what a tree matches, from every place in a stream. A run of a tree ends if
and only if one of the simplified tree does, and then both succeed with the same bindings, both
fail, or both end with the same fault, and leave the same state behind: the index, the furthest
failure and what was expected there. In a tree without an alternation of one branch, failures have
the same mismatch, and what is built from a rule is such a tree. -/
theorem run_simplify_agrees (env : Environment) (stream : TokenStream) (site : Site) (tree : Tree)
    (state : MatchState) (within : state.index ≤ stream.size) :
    ((∃ fuel, run env stream fuel site tree state ≠ .exhausted) ↔
      ∃ fuel, run env stream fuel site tree.simplify state ≠ .exhausted) ∧
    (∀ fuel other, run env stream fuel site tree state ≠ .exhausted →
      run env stream other site tree.simplify state ≠ .exhausted →
      (run env stream fuel site tree state).Agrees tree.NoSoleBranch
        (run env stream other site tree.simplify state)) ∧
    ∀ context tokens, buildFrom context [] {} tokens = .ok tree ∨ build context tokens = .ok tree →
      tree.NoSoleBranch := by
  have agrees := runsSimplified env stream tree id site state within
  refine ⟨?_, ?_, ?_⟩
  · rw [exists_run_ended_iff, exists_run_ended_iff, agrees.ended_iff]
  · intro fuel other ended endedToo
    rw [run_eq_outcome env ended, run_eq_outcome env endedToo]
    exact agrees
  · rintro context tokens (built | built)
    · exact noSoleBranch_of_plural (buildFrom_plural built)
    · exact noSoleBranch_of_plural (build_plural built)

end Tree

namespace Nest

/-- The parentheses inside of a sequence, a group and an alternation that hold nothing else. -/
def wrapped : Tree := .sequence [.repetition (.alternation [.sequence [group]]) .once]

/-- Simplifying takes the wrapping off, and the parenthesis that is never closed fails as before. -/
theorem wrapped_agrees :
    (0 : Nat) ≤ unclosed.size ∧
      (wrapped.run env unclosed 12 ⟨none, 0⟩ {}).Agrees wrapped.NoSoleBranch
        (wrapped.simplify.run env unclosed 12 ⟨none, 0⟩ {}) := by
  obtain ⟨mismatch, next, ran⟩ : ∃ mismatch next,
      wrapped.run env unclosed 12 ⟨none, 0⟩ {} = .failed mismatch next := ⟨_, _, rfl⟩
  obtain ⟨other, last, ranToo⟩ : ∃ mismatch next,
      wrapped.simplify.run env unclosed 12 ⟨none, 0⟩ {} = .failed mismatch next := ⟨_, _, rfl⟩
  have agrees := Tree.run_simplify_agrees env unclosed ⟨none, 0⟩ wrapped {} (by decide)
  exact ⟨by decide, agrees.2.1 12 12 (by simp [ran]) (by simp [ranToo])⟩

end Nest

end RecordGrammar
