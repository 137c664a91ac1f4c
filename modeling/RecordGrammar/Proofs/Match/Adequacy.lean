import RecordGrammar.Proofs.Match.Derivation

namespace RecordGrammar

/-! Runs and derivations agree.

A run that ends with a verdict has a derivation of it, by induction on the fuel. A derivation is
followed by the run from any state at its index, by induction on the derivation: the outcome given
fuel enough obeys the equation of each node, so no fuel has to be counted.
-/

namespace Outcome

variable {stream : TokenStream} {outcome : Outcome} {verdict : Verdict}

theorem verdict?_prepend (outcome : Outcome) (bindings : List Binding) :
    (outcome.prepend bindings).verdict? = outcome.verdict?.map (·.prepend bindings) := by
  cases outcome <;> rfl

theorem verdict?_orRestore (outcome : Outcome) {checkpoint : Nat}
    (within : checkpoint ≤ stream.size) :
    (outcome.orRestore stream checkpoint).verdict? = outcome.verdict? := by
  cases outcome with
  | failed mismatch state => simp only [orRestore, state.resume_eq _ within, verdict?]
  | _ => rfl

theorem matched_of_verdict? {stop : Nat} {bindings : List Binding}
    (found : outcome.verdict? = some (.success stop bindings)) :
    ∃ state, outcome = .matched bindings state ∧ state.index = stop := by
  cases outcome with
  | matched bound state =>
      simp only [verdict?, Option.some.injEq, Verdict.success.injEq] at found
      obtain ⟨stopped, rfl⟩ := found
      exact ⟨state, rfl, stopped⟩
  | _ => simp [verdict?] at found

theorem ended_of_verdict? (found : outcome.verdict? = some verdict) : outcome ≠ .exhausted := by
  rintro rfl
  simp [verdict?] at found

theorem failed_of_verdict? (found : outcome.verdict? = some .failure) :
    ∃ mismatch state, outcome = .failed mismatch state := by
  cases outcome with
  | failed mismatch state => exact ⟨mismatch, state, rfl⟩
  | _ => simp [verdict?] at found

end Outcome

namespace Leaf

variable {stream : TokenStream} {leaf : Leaf} {state : MatchState}

theorem verdict?_takes {token : Token} {bindings : List Binding}
    (current : stream.token? state.index = some token) (unmarked : token.isEnd = false)
    (accepted : leaf.accepts token = true) (coerced : leaf.bind token = .ok bindings) :
    (leaf.run stream state).verdict? = some (.success (state.index + 1) bindings) := by
  have present : state.cursor.index < stream.size := (Array.getElem?_eq_some_iff.mp current).1
  have found : (state.cursor.current? stream).filter
      (fun token => !token.isEnd && leaf.accepts token) = some token :=
    Option.filter_eq_some_iff.mpr ⟨current, by simp [unmarked, accepted]⟩
  simp only [run, found, coerced, Outcome.verdict?, Cursor.advance, if_pos present,
    MatchState.index]

theorem verdict?_refuses
    (refused : ∀ token bindings, stream.token? state.index = some token → token.isEnd = false →
      leaf.accepts token = true → leaf.bind token ≠ .ok bindings) :
    (leaf.run stream state).verdict? = some .failure := by
  unfold run
  split
  · rfl
  · rename_i token found
    obtain ⟨current, suits⟩ := Option.filter_eq_some_iff.mp found
    simp only [Bool.and_eq_true, Bool.not_eq_true'] at suits
    split
    · rename_i bindings coerced
      exact absurd coerced (refused token bindings current suits.1 suits.2)
    · rfl

theorem run_sound (env : Environment) (site : Site) {verdict : Verdict}
    (found : (leaf.run stream state).verdict? = some verdict) :
    Derives env stream site (.leaf leaf) state.index verdict := by
  by_cases takes : ∃ token bindings, stream.token? state.index = some token ∧
      token.isEnd = false ∧ leaf.accepts token = true ∧ leaf.bind token = .ok bindings
  · obtain ⟨token, bindings, current, unmarked, accepted, coerced⟩ := takes
    cases (verdict?_takes current unmarked accepted coerced).symm.trans found
    exact .leafTakes current unmarked accepted coerced
  · have refused : ∀ token bindings, stream.token? state.index = some token →
        token.isEnd = false → leaf.accepts token = true → leaf.bind token ≠ .ok bindings :=
      fun token bindings current unmarked accepted coerced =>
        takes ⟨token, bindings, current, unmarked, accepted, coerced⟩
    cases (verdict?_refuses refused).symm.trans found
    exact .leafRefuses refused

end Leaf

namespace Tree

variable {env : Environment} {stream : TokenStream}

section Soundness

variable {step : Site → Tree → MatchState → Outcome}

/-- A way of running trees that gives no verdicts but those that can be derived. -/
def Sound (env : Environment) (stream : TokenStream) (step : Site → Tree → MatchState → Outcome) :
    Prop :=
  ∀ {site tree state verdict}, state.index ≤ stream.size →
    (step site tree state).verdict? = some verdict →
    Derives env stream site tree state.index verdict

theorem inOrder_sound (kept : Kept stream step) (sound : Sound env stream step)
    {site : Site} {members : List Tree} (state : MatchState) {verdict : Verdict}
    (within : state.index ≤ stream.size)
    (found : (inOrder step site members state).verdict? = some verdict) :
    Derives env stream site (.sequence members) state.index verdict := by
  induction members generalizing site state verdict with
  | nil =>
      cases found
      exact .sequenceEnd
  | cons member rest ih =>
      have keeps := kept site member state within
      have derived := @sound site member state
      simp only [inOrder] at found
      cases ran : step site member state with
      | matched bindings next =>
          rw [ran] at keeps derived
          simp only [ran, Outcome.verdict?_prepend, Option.map_eq_some_iff] at found
          obtain ⟨later, foundLater, rfl⟩ := found
          exact .sequenceStep (derived within rfl) (ih next (keeps.1.le_size within) foundLater)
      | failed mismatch next =>
          rw [ran] at derived
          simp only [ran, Outcome.verdict?, Option.some.injEq] at found
          subst found
          exact .sequenceFails (derived within rfl)
      | _ => simp [ran, Outcome.verdict?] at found

theorem firstOf_sound (sound : Sound env stream step)
    {fallback : MatchState → Outcome} (falls : ∀ state, (fallback state).verdict? = some .failure)
    {site : Site} {branches : List Tree} (state : MatchState) {verdict : Verdict}
    (within : state.index ≤ stream.size)
    (found : (firstOf stream step fallback site branches state).verdict? = some verdict) :
    Derives env stream site (.alternation branches) state.index verdict := by
  induction branches generalizing site state with
  | nil =>
      simp only [firstOf, falls, Option.some.injEq] at found
      subst found
      exact .choiceEnd
  | cons branch rest ih =>
      have derived := @sound site branch state
      simp only [firstOf] at found
      cases ran : step site branch state with
      | matched bindings next =>
          rw [ran] at derived
          simp only [ran, Outcome.verdict?, Option.some.injEq] at found
          subst found
          exact .choiceTakes (derived within rfl)
      | failed mismatch next =>
          rw [ran] at derived
          simp only [ran, next.resume_eq _ within] at found
          exact .choiceSkips (derived within rfl) (ih (next.goto state.index) within found)
      | _ => simp [ran, Outcome.verdict?] at found

theorem endTurns_verdict {bound : Bound} {entry taken : Nat} {failure : Option Mismatch}
    {state : MatchState} {verdict : Verdict} (within : entry ≤ stream.size)
    (found : (endTurns stream bound entry taken failure state).verdict? = some verdict) :
    verdict = .ofTurns bound taken state.index [] := by
  unfold endTurns at found
  unfold Verdict.ofTurns
  split at found
  · rename_i few
    rw [if_pos few]
    cases failure with
    | some mismatch =>
        simp only [state.resume_eq _ within, Outcome.verdict?, Option.some.injEq] at found
        exact found.symm
    | none => simp [state.resume_eq _ within, Outcome.verdict?] at found
  · rename_i enough
    rw [if_neg enough]
    simp only [Outcome.verdict?, Option.some.injEq] at found
    exact found.symm

theorem turns_sound (kept : Kept stream step) (sound : Sound env stream step)
    {site : Site} {inner : Tree} {bound : Bound} {entry fuel taken : Nat} (state : MatchState)
    {verdict : Verdict} (within : state.index ≤ stream.size) (entered : entry ≤ stream.size)
    (found : (turns stream (step site inner) bound entry fuel taken state).verdict? =
      some verdict) :
    ∃ total stop bindings,
      Iterates env stream site inner bound taken state.index total stop bindings ∧
      verdict = .ofTurns bound total stop bindings := by
  induction fuel generalizing taken state verdict with
  | zero =>
      simp only [turns] at found
      split at found
      · simp [Outcome.verdict?] at found
      · rename_i full
        exact ⟨taken, state.index, [], .full (by simpa using full), endTurns_verdict entered found⟩
  | succ fuel ih =>
      have keeps := kept site inner state within
      have derived := @sound site inner state
      simp only [turns] at found
      split at found
      · rename_i allowed
        cases ran : step site inner state with
        | matched bindings next =>
            rw [ran] at keeps derived
            have turn := derived within rfl
            simp only [ran] at found
            split at found
            · rename_i idle
              simp only [Outcome.verdict?_prepend, Option.map_eq_some_iff] at found
              obtain ⟨last, foundLast, rfl⟩ := found
              refine ⟨taken + 1, state.index, bindings, .idles allowed (idle ▸ turn), ?_⟩
              rw [endTurns_verdict entered foundLast, Verdict.prepend_ofTurns, idle,
                List.append_nil]
            · rename_i moved
              simp only [Outcome.verdict?_prepend, Option.map_eq_some_iff] at found
              obtain ⟨last, foundLast, rfl⟩ := found
              obtain ⟨total, stop, later, rest, rfl⟩ := ih next (keeps.1.le_size within) foundLast
              exact ⟨total, stop, bindings ++ later, .advances allowed turn moved rest,
                Verdict.prepend_ofTurns ..⟩
        | failed mismatch next =>
            rw [ran] at derived
            simp only [ran, next.resume_eq _ within] at found
            have ended := endTurns_verdict entered found
            exact ⟨taken, state.index, [], .fails allowed (derived within rfl), ended⟩
        | _ => simp [ran, Outcome.verdict?] at found
      · rename_i full
        exact ⟨taken, state.index, [], .full (by simpa using full), endTurns_verdict entered found⟩

theorem runNode_sound (kept : Kept stream step) (sound : Sound env stream step) :
    Sound env stream (runNode env stream step) := by
  intro site tree state verdict within found
  cases tree with
  | empty =>
      cases found
      exact .empty
  | leaf taker => exact taker.run_sound env site found
  | sequence members =>
      simp only [runNode, Outcome.verdict?_orRestore _ within] at found
      exact inOrder_sound kept sound state within found
  | alternation branches => exact firstOf_sound sound (fun _ => rfl) state within found
  | repetition inner bound =>
      obtain ⟨total, stop, bindings, turns, rfl⟩ := turns_sound kept sound state within within found
      unfold Verdict.ofTurns
      split
      · rename_i few
        exact .turnsTooFew turns few
      · rename_i enough
        exact .turnsEnough turns (Nat.not_lt.mp enough)
  | reference target field =>
      simp only [runNode] at found
      cases resolved : env.resolve site target with
      | error fault => simp [resolved, Outcome.verdict?] at found
      | ok shape =>
          simp only [resolved] at found
          cases built : env.root shape with
          | error fault => simp [built, Outcome.verdict?] at found
          | ok root =>
              simp only [built] at found
              have derived := @sound ⟨some shape, 0⟩ root (state.note (.reached site shape))
              cases ran : step ⟨some shape, 0⟩ root (state.note (.reached site shape)) with
              | matched bindings next =>
                  rw [ran] at derived
                  have nested := derived within rfl
                  simp only [ran, complete] at found
                  cases made : env.fresh shape with
                  | error fault => simp [made, Outcome.verdict?] at found
                  | ok blank =>
                      simp only [made] at found
                      cases filled : env.fill bindings blank with
                      | error error => simp [filled, Outcome.verdict?] at found
                      | ok item =>
                          simp only [filled, Outcome.verdict?, Option.some.injEq] at found
                          subst found
                          exact .referenceTakes shape resolved built nested made filled
              | failed mismatch next =>
                  rw [ran] at derived
                  simp only [ran, Outcome.orRestore, next.resume_eq _ within, Outcome.verdict?,
                    Option.some.injEq] at found
                  subst found
                  exact .referenceFails shape resolved built (derived within rfl)
              | _ => simp [ran, Outcome.orRestore, Outcome.verdict?] at found

theorem run_sound (env : Environment) (stream : TokenStream) (fuel : Nat) :
    Sound env stream (run env stream fuel) := by
  induction fuel with
  | zero =>
      intro site tree state verdict within found
      simp [run, Outcome.verdict?] at found
  | succ fuel ih => exact runNode_sound (run_keeps env stream fuel) ih

end Soundness

section Completeness

/-- What is said when all branches fail does not bear on the verdict. -/
theorem verdict?_firstOf (step : Site → Tree → MatchState → Outcome)
    {fallback other : MatchState → Outcome}
    (alike : ∀ state, (fallback state).verdict? = (other state).verdict?)
    (site : Site) (branches : List Tree) (state : MatchState) :
    (firstOf stream step fallback site branches state).verdict? =
      (firstOf stream step other site branches state).verdict? := by
  induction branches generalizing site state with
  | nil => exact alike state
  | cons branch rest ih =>
      simp only [firstOf]
      cases step site branch state with
      | failed mismatch next =>
          simp only [MatchState.resume]
          cases next.restore stream state.index with
          | ok back => exact ih _ back
          | error error => rfl
      | _ => rfl

theorem verdict?_sequence {site : Site} {members : List Tree} {state : MatchState}
    (within : state.index ≤ stream.size) :
    (outcome env stream site (.sequence members) state).verdict? =
      (inOrder (outcome env stream) site members state).verdict? := by
  rw [outcome_eq]
  exact Outcome.verdict?_orRestore _ within

theorem verdict?_alternation (mismatch : Mismatch) (site : Site) (branches : List Tree)
    (state : MatchState) :
    (outcome env stream site (.alternation branches) state).verdict? =
      (firstOf stream (outcome env stream) (.failed mismatch) site branches state).verdict? := by
  rw [outcome_eq]
  simp only [runNode]
  apply verdict?_firstOf
  intro next
  rfl

theorem verdict?_endTurns_some {bound : Bound} {entry : Nat} (taken : Nat) (mismatch : Mismatch)
    (state : MatchState) (entered : entry ≤ stream.size) :
    (endTurns stream bound entry taken (some mismatch) state).verdict? =
      some (.ofTurns bound taken state.index []) := by
  unfold endTurns Verdict.ofTurns
  split
  · simp only [state.resume_eq _ entered, Outcome.verdict?]
  · rfl

theorem verdict?_endTurns_none {bound : Bound} {taken : Nat} (entry : Nat) (state : MatchState)
    (enough : bound.least ≤ taken) :
    (endTurns stream bound entry taken none state).verdict? =
      some (.ofTurns bound taken state.index []) := by
  have satisfied : ¬ taken < bound.least := Nat.not_lt.mpr enough
  simp only [endTurns, Verdict.ofTurns, if_neg satisfied, Outcome.verdict?]

theorem outcome_passes {site : Site} {tree : Tree} {state next : MatchState}
    {bindings : List Binding} (ran : outcome env stream site tree state = .matched bindings next)
    (within : state.index ≤ stream.size) : stream.Passes state.index next.index := by
  have keeps := outcome_keeps env stream site tree state within
  rw [ran] at keeps
  exact keeps.1

mutual
theorem verdict?_outcome {site : Site} {tree : Tree} {start : Nat} {verdict : Verdict} :
    Derives env stream site tree start verdict → (state : MatchState) → state.index = start →
    state.index ≤ stream.size → (outcome env stream site tree state).verdict? = some verdict
  | .empty, state, here, _ => by
      rw [outcome_eq, ← here]
      rfl
  | .sequenceEnd, state, here, _ => by
      rw [outcome_eq, ← here]
      rfl
  | .sequenceFails first, state, here, within => by
      obtain ⟨mismatch, next, ran⟩ :=
        Outcome.failed_of_verdict? (verdict?_outcome first state here within)
      rw [verdict?_sequence within]
      simp only [inOrder, ran, Outcome.verdict?]
  | .sequenceStep first rest, state, here, within => by
      obtain ⟨next, ran, stopped⟩ :=
        Outcome.matched_of_verdict? (verdict?_outcome first state here within)
      have inside := (outcome_passes ran within).le_size within
      have later := verdict?_outcome rest next stopped inside
      rw [verdict?_sequence inside] at later
      rw [verdict?_sequence within]
      simp only [inOrder, ran, Outcome.verdict?_prepend, later, Option.map_some]
  | .choiceEnd, state, _, _ => by
      rw [outcome_eq]
      rfl
  | .choiceTakes first, state, here, within => by
      obtain ⟨next, ran, stopped⟩ :=
        Outcome.matched_of_verdict? (verdict?_outcome first state here within)
      rw [outcome_eq]
      simp only [runNode, firstOf, ran, Outcome.verdict?, stopped]
  | .choiceSkips first rest, state, here, within => by
      obtain ⟨mismatch, next, ran⟩ :=
        Outcome.failed_of_verdict? (verdict?_outcome first state here within)
      have later := verdict?_outcome rest (next.goto state.index) here within
      rw [verdict?_alternation mismatch] at later ⊢
      simp only [firstOf, ran, next.resume_eq _ within]
      exact later
  | .turnsEnough turns enough, state, here, within => by
      rw [outcome_eq]
      have ended := verdict?_turns turns state here within state.index stream.size within (by omega)
      exact ended.trans (by rw [Verdict.ofTurns, if_neg (Nat.not_lt.mpr enough)])
  | .turnsTooFew turns few, state, here, within => by
      rw [outcome_eq]
      have ended := verdict?_turns turns state here within state.index stream.size within (by omega)
      exact ended.trans (by rw [Verdict.ofTurns, if_pos few])
  | .leafTakes current unmarked accepted coerced, state, here, _ => by
      rw [outcome_eq, ← here]
      exact Leaf.verdict?_takes (here ▸ current) unmarked accepted coerced
  | .leafRefuses refused, state, here, _ => by
      rw [outcome_eq]
      exact Leaf.verdict?_refuses (here ▸ refused)
  | .referenceTakes shape resolved built nested made filled, state, here, within => by
      obtain ⟨next, ran, stopped⟩ := Outcome.matched_of_verdict?
        (verdict?_outcome nested (state.note (.reached site shape)) here within)
      rw [outcome_eq]
      simp only [runNode, resolved, built, ran, complete, made, filled, Outcome.verdict?,
        MatchState.note_index, stopped]
  | .referenceFails shape resolved built nested, state, here, within => by
      obtain ⟨mismatch, next, ran⟩ := Outcome.failed_of_verdict?
        (verdict?_outcome nested (state.note (.reached site shape)) here within)
      rw [outcome_eq]
      simp only [runNode, resolved, built, ran, Outcome.orRestore, next.resume_eq _ within,
        Outcome.verdict?]

theorem verdict?_turns {site : Site} {inner : Tree} {bound : Bound}
    {taken start total stop : Nat} {bindings : List Binding} :
    Iterates env stream site inner bound taken start total stop bindings →
    (state : MatchState) → state.index = start → state.index ≤ stream.size →
    (entry fuel : Nat) → entry ≤ stream.size → stream.size < fuel + 1 + state.index →
    (turns stream (outcome env stream site inner) bound entry (fuel + 1) taken state).verdict? =
      some (.ofTurns bound total stop bindings)
  | .full full, state, here, _, entry, fuel, _, _ => by
      rw [turns_eq_endTurns entry (fuel + 1) state full, ← here]
      exact verdict?_endTurns_none entry state (Bound.least_le_of_not_allows (by simp [full]))
  | .fails allowed turn, state, here, within, entry, fuel, entered, _ => by
      obtain ⟨mismatch, next, ran⟩ :=
        Outcome.failed_of_verdict? (verdict?_outcome turn state here within)
      simp only [turns, allowed, if_true, ran, next.resume_eq _ within, ← here]
      exact verdict?_endTurns_some _ mismatch (next.goto state.index) entered
  | .idles allowed turn, state, here, within, entry, fuel, _, _ => by
      obtain ⟨next, ran, stopped⟩ :=
        Outcome.matched_of_verdict? (verdict?_outcome turn state here within)
      have satisfied : bound.least ≤ taken + 1 := Nat.le_trans bound.least_le_one (by omega)
      simp only [turns, allowed, if_true, ran, stopped, here, Outcome.verdict?_prepend,
        verdict?_endTurns_none entry next satisfied, Option.map_some, Verdict.prepend_ofTurns,
        List.append_nil]
  | .advances allowed turn moved rest, state, here, within, entry, fuel, entered, enough => by
      obtain ⟨next, ran, stopped⟩ :=
        Outcome.matched_of_verdict? (verdict?_outcome turn state here within)
      have passed := outcome_passes ran within
      have forward := passed.ordered
      have inside := passed.le_size within
      have apart : ¬ next.index = state.index := by
        rw [stopped, here]
        exact moved
      obtain ⟨left, rfl⟩ : ∃ left, fuel = left + 1 := ⟨fuel - 1, by omega⟩
      have later := verdict?_turns rest next stopped inside entry left entered (by omega)
      rw [turns]
      simp only [allowed, if_true, ran, if_neg apart, Outcome.verdict?_prepend, later,
        Option.map_some, Verdict.prepend_ofTurns]
end

end Completeness

/-- Runs match as the rules of `Derives` say. A run that ends has just the verdict that can be
derived for its tree from its index, and no verdict if it ends with a fault; if it fails, the cursor
is back at that index. Where a verdict can be derived, a run ends. -/
theorem run_verdict_iff_derives (env : Environment) (stream : TokenStream) (site : Site)
    (tree : Tree) (state : MatchState) (within : state.index ≤ stream.size) (verdict : Verdict) :
    (∀ fuel, run env stream fuel site tree state ≠ .exhausted →
      ((run env stream fuel site tree state).verdict? = some verdict ↔
        Derives env stream site tree state.index verdict)) ∧
    (∀ fuel mismatch next, run env stream fuel site tree state = .failed mismatch next →
      next.index = state.index) ∧
    (Derives env stream site tree state.index verdict →
      ∃ fuel, run env stream fuel site tree state ≠ .exhausted) := by
  have followed (derived : Derives env stream site tree state.index verdict) :=
    verdict?_outcome derived state rfl within
  refine ⟨?_, ?_, ?_⟩
  · intro fuel ended
    constructor
    · exact run_sound env stream fuel within
    · intro derived
      rw [run_eq_outcome env ended]
      exact followed derived
  · intro fuel mismatch next ran
    have keeps := run_keeps env stream fuel site tree state within
    rw [ran] at keeps
    exact keeps.1
  · intro derived
    exact (exists_run_ended_iff env).mpr (Outcome.ended_of_verdict? (followed derived))

end Tree

namespace Nest

/-- The tokens of two pairs of parentheses, one inside of the other. -/
def closed : TokenStream where
  tokens := #[mark "(" 0, mark "(" 1, mark ")" 2, mark ")" 3, finish 4]
  ended := ⟨finish 4, rfl, rfl⟩

/-- A record that holds something. -/
def holding (inner : Value) : Value := .entity (.record 0) "Nest" none [("inner", inner)]

/-- What the outer parentheses bind is a record that holds what the inner ones bind. -/
theorem closed_derives :
    (0 : Nat) ≤ closed.size ∧
      Derives env closed ⟨none, 0⟩ group 0
        (.success 4 [.assign "inner" (holding (holding .null))]) := by
  have found : (group.run env closed 9 ⟨none, 0⟩ {}).verdict? =
      some (.success 4 [.assign "inner" (holding (holding .null))]) := rfl
  have agrees := Tree.run_verdict_iff_derives env closed ⟨none, 0⟩ group {} (by decide)
    (.success 4 [.assign "inner" (holding (holding .null))])
  exact ⟨by decide, (agrees.1 9 (Outcome.ended_of_verdict? found)).mp found⟩

end Nest

end RecordGrammar
