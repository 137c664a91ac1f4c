import RecordGrammar.Proofs.Match.Contract

namespace RecordGrammar

/-! Fuel only decides whether a run ends.

With more fuel a run either ends as before or goes on where it was cut off, so there is one outcome
that all sufficient fuel leads to. That outcome obeys the equation of a single node, with no fuel
in it.
-/

/-- An outcome has come no further than another: fuel ran out, or the two are the same. -/
def Outcome.Approximates (outcome final : Outcome) : Prop :=
  outcome = .exhausted ∨ outcome = final

namespace Outcome.Approximates

variable {outcome final : Outcome}

theorem refl (outcome : Outcome) : outcome.Approximates outcome := .inr rfl

theorem eq (approximates : outcome.Approximates final) (ended : outcome ≠ .exhausted) :
    outcome = final :=
  approximates.resolve_left ended

theorem prepend (approximates : outcome.Approximates final) (bindings : List Binding) :
    (outcome.prepend bindings).Approximates (final.prepend bindings) := by
  rcases approximates with rfl | rfl
  · exact .inl rfl
  · exact refl _

theorem orRestore (stream : TokenStream) (approximates : outcome.Approximates final)
    (checkpoint : Nat) :
    (outcome.orRestore stream checkpoint).Approximates (final.orRestore stream checkpoint) := by
  rcases approximates with rfl | rfl
  · exact .inl rfl
  · exact refl _

theorem resume (stream : TokenStream) (state : MatchState) (checkpoint : Nat)
    {next after : MatchState → Outcome}
    (approximates : ∀ back, (next back).Approximates (after back)) :
    (state.resume stream checkpoint next).Approximates (state.resume stream checkpoint after) := by
  unfold MatchState.resume
  cases state.restore stream checkpoint with
  | ok back => exact approximates back
  | error error => exact refl _

end Outcome.Approximates

namespace Tree

variable {stream : TokenStream} {less more : Site → Tree → MatchState → Outcome}

theorem inOrder_approximates
    (approximates : ∀ site tree state, (less site tree state).Approximates (more site tree state))
    (site : Site) (members : List Tree) (state : MatchState) :
    (inOrder less site members state).Approximates (inOrder more site members state) := by
  induction members generalizing site state with
  | nil => exact .refl _
  | cons member rest ih =>
      simp only [inOrder]
      rcases approximates site member state with cut | same
      · rw [cut]
        exact .inl rfl
      · rw [same]
        cases more site member state with
        | matched bindings next => exact (ih _ next).prepend bindings
        | _ => exact .refl _

theorem firstOf_approximates
    (approximates : ∀ site tree state, (less site tree state).Approximates (more site tree state))
    (fallback : MatchState → Outcome) (site : Site) (branches : List Tree) (state : MatchState) :
    (firstOf stream less fallback site branches state).Approximates
      (firstOf stream more fallback site branches state) := by
  induction branches generalizing site state with
  | nil => exact .refl _
  | cons branch rest ih =>
      simp only [firstOf]
      rcases approximates site branch state with cut | same
      · rw [cut]
        exact .inl rfl
      · rw [same]
        cases more site branch state with
        | failed mismatch next => exact .resume stream next _ (ih _)
        | _ => exact .refl _

theorem turns_approximates {less more : MatchState → Outcome}
    (approximates : ∀ state, (less state).Approximates (more state))
    (bound : Bound) (entry fuel taken : Nat) (state : MatchState) :
    (turns stream less bound entry fuel taken state).Approximates
      (turns stream more bound entry fuel taken state) := by
  induction fuel generalizing taken state with
  | zero => exact .refl _
  | succ fuel ih =>
      simp only [turns]
      split
      · rcases approximates state with cut | same
        · rw [cut]
          exact .inl rfl
        · rw [same]
          cases more state with
          | matched bindings next =>
              simp only
              split
              · exact .refl _
              · exact (ih (taken + 1) next).prepend bindings
          | _ => exact .refl _
      · exact .refl _

theorem runNode_approximates (env : Environment)
    (approximates : ∀ site tree state, (less site tree state).Approximates (more site tree state))
    (site : Site) (tree : Tree) (state : MatchState) :
    (runNode env stream less site tree state).Approximates
      (runNode env stream more site tree state) := by
  cases tree with
  | empty => exact .refl _
  | leaf taker => exact .refl _
  | sequence members =>
      exact (inOrder_approximates approximates site members state).orRestore stream _
  | alternation branches => exact firstOf_approximates approximates _ site branches state
  | repetition inner bound => exact turns_approximates (approximates site inner) bound _ _ 0 state
  | reference target field =>
      simp only [runNode]
      cases env.resolve site target with
      | error fault => exact .refl _
      | ok shape =>
          simp only
          cases env.root shape with
          | error fault => exact .refl _
          | ok root =>
              simp only
              rcases approximates ⟨some shape, 0⟩ root (state.note (.reached site shape)) with
                cut | same
              · rw [cut]
                exact .inl rfl
              · rw [same]
                exact .refl _

theorem run_approximates_succ (env : Environment) (stream : TokenStream) (fuel : Nat)
    (site : Site) (tree : Tree) (state : MatchState) :
    (run env stream fuel site tree state).Approximates
      (run env stream (fuel + 1) site tree state) := by
  induction fuel generalizing site tree state with
  | zero => exact .inl rfl
  | succ fuel ih => exact runNode_approximates env ih site tree state

/-- More fuel does not change how a run ends. -/
theorem run_eq_of_le (env : Environment) {site : Site} {tree : Tree} {state : MatchState}
    {fuel enough : Nat} (within : fuel ≤ enough)
    (ended : run env stream fuel site tree state ≠ .exhausted) :
    run env stream enough site tree state = run env stream fuel site tree state := by
  induction within with
  | refl => rfl
  | @step middle _ ih =>
      have further := run_approximates_succ env stream middle site tree state
      exact (further.eq (ih ▸ ended)).symm.trans ih

open Classical in
/-- How a run ends, given fuel enough. It is exhausted only if no fuel is enough. -/
noncomputable def outcome (env : Environment) (stream : TokenStream) (site : Site) (tree : Tree)
    (state : MatchState) : Outcome :=
  if ends : ∃ fuel, run env stream fuel site tree state ≠ .exhausted then
    run env stream ends.choose site tree state
  else .exhausted

/-- A family of outcomes is the same from some fuel on. -/
def Settles (family : Nat → Outcome) (final : Outcome) : Prop :=
  ∃ enough, ∀ fuel, enough ≤ fuel → family fuel = final

theorem Settles.unique {family : Nat → Outcome} {final other : Outcome}
    (settles : Settles family final) (also : Settles family other) : final = other := by
  obtain ⟨enough, agrees⟩ := settles
  obtain ⟨enoughToo, agreesToo⟩ := also
  rw [← agrees (max enough enoughToo) (by omega), agreesToo (max enough enoughToo) (by omega)]

theorem run_settles (env : Environment) (stream : TokenStream) (site : Site) (tree : Tree)
    (state : MatchState) :
    Settles (fun fuel => run env stream fuel site tree state)
      (outcome env stream site tree state) := by
  unfold outcome
  split
  · rename_i ends
    exact ⟨ends.choose, fun fuel within => run_eq_of_le env within ends.choose_spec⟩
  · rename_i never
    refine ⟨0, fun fuel _ => ?_⟩
    by_cases cut : run env stream fuel site tree state = .exhausted
    · exact cut
    · exact absurd ⟨fuel, cut⟩ never

theorem run_eq_outcome (env : Environment) {site : Site} {tree : Tree} {state : MatchState}
    {fuel : Nat} (ended : run env stream fuel site tree state ≠ .exhausted) :
    run env stream fuel site tree state = outcome env stream site tree state := by
  obtain ⟨enough, agrees⟩ := run_settles env stream site tree state
  rw [← agrees (max fuel enough) (by omega)]
  exact (run_eq_of_le env (by omega) ended).symm

theorem exists_run_ended_iff (env : Environment) {site : Site} {tree : Tree} {state : MatchState} :
    (∃ fuel, run env stream fuel site tree state ≠ .exhausted) ↔
      outcome env stream site tree state ≠ .exhausted := by
  constructor
  · rintro ⟨fuel, ended⟩
    exact run_eq_outcome env ended ▸ ended
  · intro ended
    obtain ⟨enough, agrees⟩ := run_settles env stream site tree state
    refine ⟨enough, fun exhausted => ended ?_⟩
    exact (agrees enough (Nat.le_refl enough)).symm.trans exhausted

section Settling

variable {step : Nat → Site → Tree → MatchState → Outcome}
  {final : Site → Tree → MatchState → Outcome}

theorem inOrder_settles
    (settles : ∀ site tree state,
      Settles (fun fuel => step fuel site tree state) (final site tree state))
    (site : Site) (members : List Tree) (state : MatchState) :
    Settles (fun fuel => inOrder (step fuel) site members state)
      (inOrder final site members state) := by
  induction members generalizing site state with
  | nil => exact ⟨0, fun _ _ => rfl⟩
  | cons member rest ih =>
      obtain ⟨first, agrees⟩ := settles site member state
      simp only [inOrder]
      cases ran : final site member state with
      | matched bindings next =>
          obtain ⟨later, agreesLater⟩ := ih (site.after member) next
          refine ⟨max first later, fun fuel within => ?_⟩
          simp only [agrees fuel (by omega), ran, agreesLater fuel (by omega)]
      | _ => exact ⟨first, fun fuel within => by simp only [agrees fuel within, ran]⟩

theorem firstOf_settles
    (settles : ∀ site tree state,
      Settles (fun fuel => step fuel site tree state) (final site tree state))
    (fallback : MatchState → Outcome) (site : Site) (branches : List Tree) (state : MatchState) :
    Settles (fun fuel => firstOf stream (step fuel) fallback site branches state)
      (firstOf stream final fallback site branches state) := by
  induction branches generalizing site state with
  | nil => exact ⟨0, fun _ _ => rfl⟩
  | cons branch rest ih =>
      obtain ⟨first, agrees⟩ := settles site branch state
      simp only [firstOf]
      cases ran : final site branch state with
      | failed mismatch next =>
          simp only [MatchState.resume]
          cases restored : next.restore stream state.index with
          | ok back =>
              obtain ⟨later, agreesLater⟩ := ih (site.after branch) back
              refine ⟨max first later, fun fuel within => ?_⟩
              simp only [agrees fuel (by omega), ran, restored, agreesLater fuel (by omega)]
          | error error =>
              exact ⟨first, fun fuel within => by simp only [agrees fuel within, ran, restored]⟩
      | _ => exact ⟨first, fun fuel within => by simp only [agrees fuel within, ran]⟩

theorem turns_settles {step : Nat → MatchState → Outcome} {final : MatchState → Outcome}
    (settles : ∀ state, Settles (fun fuel => step fuel state) (final state))
    (bound : Bound) (entry turnsLeft taken : Nat) (state : MatchState) :
    Settles (fun fuel => turns stream (step fuel) bound entry turnsLeft taken state)
      (turns stream final bound entry turnsLeft taken state) := by
  induction turnsLeft generalizing taken state with
  | zero => exact ⟨0, fun _ _ => rfl⟩
  | succ turnsLeft ih =>
      obtain ⟨first, agrees⟩ := settles state
      simp only [turns]
      split
      · cases ran : final state with
        | matched bindings next =>
            obtain ⟨later, agreesLater⟩ := ih (taken + 1) next
            refine ⟨max first later, fun fuel within => ?_⟩
            simp only [agrees fuel (by omega), ran, agreesLater fuel (by omega)]
        | _ => exact ⟨first, fun fuel within => by simp only [agrees fuel within, ran]⟩
      · exact ⟨0, fun _ _ => rfl⟩

theorem runNode_settles (env : Environment)
    (settles : ∀ site tree state,
      Settles (fun fuel => step fuel site tree state) (final site tree state))
    (site : Site) (tree : Tree) (state : MatchState) :
    Settles (fun fuel => runNode env stream (step fuel) site tree state)
      (runNode env stream final site tree state) := by
  cases tree with
  | empty => exact ⟨0, fun _ _ => rfl⟩
  | leaf taker => exact ⟨0, fun _ _ => rfl⟩
  | sequence members =>
      obtain ⟨enough, agrees⟩ := inOrder_settles settles site members state
      exact ⟨enough, fun fuel within => by simp only [runNode, agrees fuel within]⟩
  | alternation branches => exact firstOf_settles settles _ site branches state
  | repetition inner bound => exact turns_settles (settles site inner) bound _ _ 0 state
  | reference target field =>
      simp only [runNode]
      cases resolved : env.resolve site target with
      | error fault => exact ⟨0, fun _ _ => rfl⟩
      | ok shape =>
          simp only
          cases built : env.root shape with
          | error fault => exact ⟨0, fun _ _ => rfl⟩
          | ok root =>
              obtain ⟨enough, agrees⟩ :=
                settles ⟨some shape, 0⟩ root (state.note (.reached site shape))
              exact ⟨enough, fun fuel within => by simp only [agrees fuel within]⟩

end Settling

/-- Given fuel enough, a run of a tree is put together from the runs of the trees in it. -/
theorem outcome_eq (env : Environment) (stream : TokenStream) (site : Site) (tree : Tree)
    (state : MatchState) :
    outcome env stream site tree state =
      runNode env stream (outcome env stream) site tree state := by
  obtain ⟨enough, agrees⟩ := run_settles env stream site tree state
  have shifted : Settles (fun fuel => run env stream (fuel + 1) site tree state)
      (outcome env stream site tree state) :=
    ⟨enough, fun fuel within => agrees (fuel + 1) (by omega)⟩
  exact shifted.unique (runNode_settles env (run_settles env stream) site tree state)

theorem outcome_keeps (env : Environment) (stream : TokenStream) :
    Kept stream (outcome env stream) := by
  intro site tree state within
  obtain ⟨enough, agrees⟩ := run_settles env stream site tree state
  rw [← agrees enough (Nat.le_refl enough)]
  exact run_keeps env stream enough site tree state within

end Tree

end RecordGrammar
