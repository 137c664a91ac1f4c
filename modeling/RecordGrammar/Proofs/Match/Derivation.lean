import RecordGrammar.Proofs.Match.Fuel

namespace RecordGrammar

/-! Matching as a relation between a place in the stream and a verdict.

`Derives` says what a tree comes to when it is matched from an index, without a cursor, a record of
failures, a checkpoint or fuel. Runs that end without a fault give exactly the verdicts that can be
derived.
-/

/-- What a match comes to: it stops at an index with some bindings, or it fails. -/
inductive Verdict where
  | success (stop : Nat) (bindings : List Binding)
  | failure

namespace Verdict

/-- Puts the bindings of an earlier match in front. -/
def prepend (bindings : List Binding) : Verdict → Verdict
  | .success stop later => .success stop (bindings ++ later)
  | .failure => .failure

/-- What a group comes to that has had so many turns. -/
def ofTurns (bound : Bound) (taken stop : Nat) (bindings : List Binding) : Verdict :=
  if taken < bound.least then .failure else .success stop bindings

theorem prepend_ofTurns (bound : Bound) (taken stop : Nat) (bindings later : List Binding) :
    (ofTurns bound taken stop later).prepend bindings =
      ofTurns bound taken stop (bindings ++ later) := by
  unfold ofTurns
  split <;> rfl

end Verdict

mutual
/-- A tree at a site, matched from an index, comes to a verdict. -/
inductive Derives (env : Environment) (stream : TokenStream) :
    Site → Tree → Nat → Verdict → Prop
  | empty : Derives env stream site .empty start (.success start [])
  | sequenceEnd : Derives env stream site (.sequence []) start (.success start [])
  | sequenceFails (first : Derives env stream site member start .failure) :
      Derives env stream site (.sequence (member :: members)) start .failure
  | sequenceStep (first : Derives env stream site member start (.success middle bindings))
      (rest : Derives env stream (site.after member) (.sequence members) middle verdict) :
      Derives env stream site (.sequence (member :: members)) start (verdict.prepend bindings)
  | choiceEnd : Derives env stream site (.alternation []) start .failure
  | choiceTakes (first : Derives env stream site branch start (.success stop bindings)) :
      Derives env stream site (.alternation (branch :: branches)) start (.success stop bindings)
  | choiceSkips (first : Derives env stream site branch start .failure)
      (rest : Derives env stream (site.after branch) (.alternation branches) start verdict) :
      Derives env stream site (.alternation (branch :: branches)) start verdict
  | turnsEnough {inner : Tree}
      (turns : Iterates env stream site inner bound 0 start taken stop bindings)
      (enough : bound.least ≤ taken) :
      Derives env stream site (.repetition inner bound) start (.success stop bindings)
  | turnsTooFew {inner : Tree}
      (turns : Iterates env stream site inner bound 0 start taken stop bindings)
      (few : taken < bound.least) :
      Derives env stream site (.repetition inner bound) start .failure
  | leafTakes (current : stream.token? start = some token) (unmarked : token.isEnd = false)
      (accepted : leaf.accepts token = true) (coerced : leaf.bind token = .ok bindings) :
      Derives env stream site (.leaf leaf) start (.success (start + 1) bindings)
  | leafRefuses
      (refused : ∀ token bindings, stream.token? start = some token → token.isEnd = false →
        leaf.accepts token = true → leaf.bind token ≠ .ok bindings) :
      Derives env stream site (.leaf leaf) start .failure
  | referenceTakes (shape : ShapeId) (resolved : env.resolve site target = .ok shape)
      (built : env.root shape = .ok root)
      (nested : Derives env stream ⟨some shape, 0⟩ root start (.success stop bindings))
      (made : env.fresh shape = .ok blank) (filled : env.fill bindings blank = .ok item) :
      Derives env stream site (.reference target field) start (.success stop [field.holding item])
  | referenceFails (shape : ShapeId) (resolved : env.resolve site target = .ok shape)
      (built : env.root shape = .ok root)
      (nested : Derives env stream ⟨some shape, 0⟩ root start .failure) :
      Derives env stream site (.reference target field) start .failure

/-- The turns of a group from an index on, after so many turns before: how many turns there are in
the end, where the last of them stops, and what they bind. -/
inductive Iterates (env : Environment) (stream : TokenStream) :
    Site → Tree → Bound → Nat → Nat → Nat → Nat → List Binding → Prop
  | full {inner : Tree} (full : bound.allows taken = false) :
      Iterates env stream site inner bound taken start taken start []
  | fails {inner : Tree} (allowed : bound.allows taken = true)
      (turn : Derives env stream site inner start .failure) :
      Iterates env stream site inner bound taken start taken start []
  | idles {inner : Tree} (allowed : bound.allows taken = true)
      (turn : Derives env stream site inner start (.success start bindings)) :
      Iterates env stream site inner bound taken start (taken + 1) start bindings
  | advances {inner : Tree} (allowed : bound.allows taken = true)
      (turn : Derives env stream site inner start (.success middle bindings))
      (moved : middle ≠ start)
      (rest : Iterates env stream site inner bound (taken + 1) middle total stop later) :
      Iterates env stream site inner bound taken start total stop (bindings ++ later)
end

/-- The verdict of a run that ends without a fault. -/
def Outcome.verdict? : Outcome → Option Verdict
  | .matched bindings state => some (.success state.index bindings)
  | .failed _ _ => some .failure
  | _ => none

end RecordGrammar
