import RecordGrammar.Proofs.Match.Lookahead
import RecordGrammar.Proofs.Parse.Failure
import RecordGrammar.Proofs.Parse.Stages

namespace RecordGrammar

/-! What a text is rejected for does not depend on what comes after the reported token. -/

namespace Tree

variable {env : Environment} {first second : TokenStream}

theorem attempt_eq_finish_outcome {weight : Nat} (weighs : env.Weighs weight) (stream : TokenStream)
    (complete : Bool) (site : Site) (tree : Tree) {state : MatchState}
    (within : state.index ≤ stream.size) :
    tree.attempt env weight stream complete site state =
      finish stream complete (outcome env stream site tree state) := by
  rw [attempt_eq_finish, run_fuelFor_eq_outcome weighs site tree within]

theorem finish_foretells {start : MatchState} {outcome other : Outcome} (complete : Bool)
    (foretells : outcome.Foretells first second start other) :
    (finish first complete outcome).Foretells first second start
      (finish second complete other) := by
  cases outcome with
  | matched bindings next =>
      refine .following foretells.1 foretells.2.1 (fun agree => congrArg _ (foretells.2.2 agree)) ?_
      simp only [finish]
      split
      · rename_i leftover
        have noted := next.cursor.index_le_expect_furthest "end of text"
        refine ⟨noted, next.cursor.le_expect_furthest _, fun agree => ?_⟩
        have here : first.token? next.cursor.index = second.token? next.cursor.index :=
          agree _ noted
        rw [Cursor.atEnd_congr here, if_pos leftover]
        simp only [Cursor.mismatch, Cursor.position?, Cursor.current?, here]
      · rename_i done
        refine ⟨Nat.le_refl _, Nat.le_refl _, fun agree => ?_⟩
        rw [Cursor.atEnd_congr (agree next.index (by omega)), if_neg done]
  | failed mismatch next =>
      obtain ⟨noted, further, agrees⟩ := foretells
      exact ⟨noted, further, fun agree => by rw [agrees agree]; rfl⟩
  | _ => trivial

/-- How an attempt ends depends on no token behind the furthest failure, or behind the index where a
success stops. In another stream with the same tokens up to there, a failure stays the same failure:
the mismatch, the furthest place and what was expected there, and so what is reported. A success
stops at the same index and has the same bindings. -/
theorem attempt_looks_no_further {weight : Nat} (weighs : env.Weighs weight)
    (compiled : env.NoEmptyChoice) (first second : TokenStream) (complete : Bool) (site : Site)
    (tree : Tree) (whole : tree.NoEmptyChoice) (state : MatchState)
    (inside : state.index < first.size) :
    (∀ mismatch next, tree.attempt env weight first complete site state = .failed mismatch next →
      first.AgreeTo second next.cursor.furthest →
        tree.attempt env weight second complete site state = .failed mismatch next ∧
        next.cursor.deepest? second = next.cursor.deepest? first ∧
        ∀ source other failure report complaint another,
          explainMismatch source first next.cursor mismatch = .ok (failure, complaint) →
          explainMismatch other second next.cursor mismatch = .ok (report, another) →
          failure = report) ∧
    ∀ bindings next, tree.attempt env weight first complete site state = .matched bindings next →
      first.AgreeTo second (max next.cursor.furthest next.index) →
        tree.attempt env weight second complete site state = .matched bindings next := by
  have foretells :=
    finish_foretells complete (outcome_foretells compiled first second site tree state whole inside)
  rw [← attempt_eq_finish_outcome weighs first complete site tree (Nat.le_of_lt inside)]
    at foretells
  have ended {last : Nat} (agree : first.AgreeTo second last) (noted : state.index ≤ last) :=
    attempt_eq_finish_outcome weighs second complete site tree
      (Nat.le_of_lt (agree.lt_size noted inside))
  constructor
  · intro mismatch next failed agree
    rw [failed] at foretells
    obtain ⟨noted, _, agrees⟩ := foretells
    have deepest : next.cursor.deepest? second = next.cursor.deepest? first :=
      (agree next.cursor.furthest (Nat.le_refl _)).symm
    refine ⟨(ended agree noted).trans (agrees agree), deepest, ?_⟩
    intro source other failure report complaint another explained explainedToo
    obtain ⟨token, found, rfl⟩ := explainMismatch_failure explained
    obtain ⟨tokenToo, foundToo, rfl⟩ := explainMismatch_failure explainedToo
    rw [deepest, found] at foundToo
    cases foundToo
    rfl
  · intro bindings next matched agree
    rw [matched] at foretells
    obtain ⟨forward, _, agrees⟩ := foretells
    exact (ended agree (by omega)).trans (agrees agree)

end Tree

namespace Nest

/-- The tokens of a text with a parenthesis too many, and with another one behind that. -/
def surplus : TokenStream where
  tokens := #[mark "(" 0, mark ")" 1, mark ")" 2, mark "(" 3, finish 4]
  ended := ⟨finish 4, rfl, rfl⟩

def shorter : TokenStream where
  tokens := #[mark "(" 0, mark ")" 1, mark ")" 2, finish 3]
  ended := ⟨finish 3, rfl, rfl⟩

theorem surplus_agreeTo_shorter : surplus.AgreeTo shorter 2 := by
  intro index within
  obtain rfl | rfl | rfl : index = 0 ∨ index = 1 ∨ index = 2 := by omega
  all_goals rfl

/-- What parentheses stand for, once they are registered. -/
def compiled : Environment := registry.environment .standard

def failedAt? : Outcome → Option Nat
  | .failed _ state => some state.cursor.furthest
  | _ => none

theorem exists_of_failedAt? {outcome : Outcome} {place : Nat}
    (failed : failedAt? outcome = some place) :
    ∃ mismatch next, outcome = .failed mismatch next ∧ next.cursor.furthest = place := by
  cases outcome with
  | failed mismatch next => exact ⟨mismatch, next, rfl, Option.some.inj failed⟩
  | _ => cases failed

set_option maxRecDepth 4000 in
/-- What comes behind the parenthesis too many does not matter. -/
theorem surplus_reported :
    compiled.Weighs (registry.weight .standard) ∧ compiled.NoEmptyChoice ∧
      ∃ root mismatch next, compiled.root 0 = .ok root ∧ root.NoEmptyChoice ∧
        root.attempt compiled (registry.weight .standard) surplus true ⟨some 0, 0⟩ {} =
          .failed mismatch next ∧
        next.cursor.furthest = 2 ∧
        root.attempt compiled (registry.weight .standard) shorter true ⟨some 0, 0⟩ {} =
          .failed mismatch next := by
  have weighs : compiled.Weighs (registry.weight .standard) := registry.environment_weighs .standard
  have choices : compiled.NoEmptyChoice :=
    Registry.environment_noEmptyChoice registered.reached.built .standard
  have made : compiled.root 0 = .ok (.repetition group .optional) := by cbv
  have whole := choices 0 _ made
  obtain ⟨mismatch, next, failed, furthest⟩ := exists_of_failedAt? (show failedAt?
    ((Tree.repetition group .optional).attempt compiled (registry.weight .standard) surplus true
      ⟨some 0, 0⟩ {}) = some 2 by cbv)
  have agree : surplus.AgreeTo shorter next.cursor.furthest := furthest ▸ surplus_agreeTo_shorter
  have looks :=
    Tree.attempt_looks_no_further weighs choices surplus shorter true ⟨some 0, 0⟩ _ whole {}
      (by decide)
  exact ⟨weighs, choices, _, mismatch, next, made, whole, failed, furthest,
    (looks.1 mismatch next failed agree).1⟩

end Nest

end RecordGrammar
