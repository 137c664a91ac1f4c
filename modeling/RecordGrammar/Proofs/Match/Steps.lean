import RecordGrammar.Proofs.Match.Termination

namespace RecordGrammar

/-! The steps of a match that succeeds: the tokens that its leaves take and the stretches of tokens
that its references take, from left to right.

What a match binds is what its steps bind, one after the other. The steps share out the tokens that
the match passes: every one of them is taken by one leaf, be it a leaf of the tree or one behind a
reference. -/

/-- A step: a leaf takes the token at an index, or a reference makes a record of a shape from the
steps inside of it. -/
inductive Step where
  | leaf (index : Nat) (leaf : Leaf) (bindings : List Binding)
  | reference (start stop : Nat) (field : Field) (shape : ShapeId) (item : Value)
      (inside : List Step)

namespace Step

def start : Step → Nat
  | .leaf index _ _ => index
  | .reference start _ _ _ _ _ => start

def stop : Step → Nat
  | .leaf index _ _ => index + 1
  | .reference _ stop _ _ _ _ => stop

def bindings : Step → List Binding
  | .leaf _ _ bindings => bindings
  | .reference _ _ field _ item _ => [field.holding item]

mutual
/-- The tokens that leaves take, by their indexes. -/
def indexes : Step → List Nat
  | .leaf index _ _ => [index]
  | .reference _ _ _ _ _ inside => indexesAll inside

def indexesAll : List Step → List Nat
  | [] => []
  | step :: rest => step.indexes ++ indexesAll rest
end

theorem indexesAll_append (steps later : List Step) :
    indexesAll (steps ++ later) = indexesAll steps ++ indexesAll later := by
  induction steps with
  | nil => rfl
  | cons step rest ih => rw [List.cons_append, indexesAll, indexesAll, ih, List.append_assoc]

end Step

mutual
/-- A tree at a site, matched from an index, stops at another one after some steps. -/
inductive Takes (env : Environment) (stream : TokenStream) :
    Site → Tree → Nat → Nat → List Step → Prop
  | empty : Takes env stream site .empty start start []
  | sequenceEnd : Takes env stream site (.sequence []) start start []
  | sequenceStep (first : Takes env stream site member start middle steps)
      (rest : Takes env stream (site.after member) (.sequence members) middle stop later) :
      Takes env stream site (.sequence (member :: members)) start stop (steps ++ later)
  | choiceTakes (first : Takes env stream site branch start stop steps) :
      Takes env stream site (.alternation (branch :: branches)) start stop steps
  | choiceSkips (first : Derives env stream site branch start .failure)
      (rest : Takes env stream (site.after branch) (.alternation branches) start stop steps) :
      Takes env stream site (.alternation (branch :: branches)) start stop steps
  | turns {inner : Tree} (turns : TakesTurns env stream site inner bound 0 start taken stop steps)
      (enough : bound.least ≤ taken) :
      Takes env stream site (.repetition inner bound) start stop steps
  | leaf (current : stream.token? start = some token) (unmarked : token.isEnd = false)
      (accepted : leaf.accepts token = true) (coerced : leaf.bind token = .ok bindings) :
      Takes env stream site (.leaf leaf) start (start + 1) [.leaf start leaf bindings]
  | reference (shape : ShapeId) (resolved : env.resolve site target = .ok shape)
      (built : env.root shape = .ok root)
      (nested : Takes env stream ⟨some shape, 0⟩ root start stop inside)
      (made : env.fresh shape = .ok blank)
      (filled : env.fill (inside.flatMap Step.bindings) blank = .ok item) :
      Takes env stream site (.reference target field) start stop
        [.reference start stop field shape item inside]

/-- The turns of a group from an index on, after so many turns before: how many there are in the
end, where the last of them stops, and what steps they take. -/
inductive TakesTurns (env : Environment) (stream : TokenStream) :
    Site → Tree → Bound → Nat → Nat → Nat → Nat → List Step → Prop
  | full {inner : Tree} (full : bound.allows taken = false) :
      TakesTurns env stream site inner bound taken start taken start []
  | fails {inner : Tree} (allowed : bound.allows taken = true)
      (turn : Derives env stream site inner start .failure) :
      TakesTurns env stream site inner bound taken start taken start []
  | idles {inner : Tree} (allowed : bound.allows taken = true)
      (turn : Takes env stream site inner start start steps) :
      TakesTurns env stream site inner bound taken start (taken + 1) start steps
  | advances {inner : Tree} (allowed : bound.allows taken = true)
      (turn : Takes env stream site inner start middle steps) (moved : middle ≠ start)
      (rest : TakesTurns env stream site inner bound (taken + 1) middle total stop later) :
      TakesTurns env stream site inner bound taken start total stop (steps ++ later)
end

section Adequacy

variable {env : Environment} {stream : TokenStream}

mutual
theorem Takes.derives {site : Site} {tree : Tree} {start stop : Nat} {steps : List Step} :
    Takes env stream site tree start stop steps →
      Derives env stream site tree start (.success stop (steps.flatMap Step.bindings))
  | .empty => .empty
  | .sequenceEnd => .sequenceEnd
  | .sequenceStep first rest => by
      rw [List.flatMap_append]
      exact .sequenceStep first.derives rest.derives
  | .choiceTakes first => .choiceTakes first.derives
  | .choiceSkips first rest => .choiceSkips first rest.derives
  | .turns turns enough => .turnsEnough turns.iterates enough
  | .leaf current unmarked accepted coerced => by
      rw [List.flatMap_singleton]
      exact .leafTakes current unmarked accepted coerced
  | .reference shape resolved built nested made filled =>
      .referenceTakes shape resolved built nested.derives made filled

theorem TakesTurns.iterates {site : Site} {inner : Tree} {bound : Bound}
    {taken start total stop : Nat} {steps : List Step} :
    TakesTurns env stream site inner bound taken start total stop steps →
      Iterates env stream site inner bound taken start total stop (steps.flatMap Step.bindings)
  | .full full => .full full
  | .fails allowed turn => .fails allowed turn
  | .idles allowed turn => .idles allowed turn.derives
  | .advances allowed turn moved rest => by
      rw [List.flatMap_append]
      exact .advances allowed turn.derives moved rest.iterates
end

mutual
theorem Derives.takes {site : Site} {tree : Tree} {start : Nat} {verdict : Verdict} :
    Derives env stream site tree start verdict → (stop : Nat) → (bindings : List Binding) →
      verdict = .success stop bindings →
      ∃ steps, Takes env stream site tree start stop steps ∧ steps.flatMap Step.bindings = bindings
  | .empty, _, _, rfl => ⟨[], .empty, rfl⟩
  | .sequenceEnd, _, _, rfl => ⟨[], .sequenceEnd, rfl⟩
  | .sequenceStep first rest, stop, bindings, same => by
      obtain ⟨later, succeeded, joined⟩ := Verdict.success_of_prepend same
      obtain ⟨steps, took, binds⟩ := first.takes _ _ rfl
      obtain ⟨more, tookRest, bindsRest⟩ := rest.takes _ _ succeeded
      refine ⟨steps ++ more, .sequenceStep took tookRest, ?_⟩
      rw [List.flatMap_append, binds, bindsRest, joined]
  | .choiceTakes first, stop, bindings, same => by
      obtain ⟨steps, took, binds⟩ := first.takes _ _ same
      exact ⟨steps, .choiceTakes took, binds⟩
  | .choiceSkips first rest, stop, bindings, same => by
      obtain ⟨steps, took, binds⟩ := rest.takes _ _ same
      exact ⟨steps, .choiceSkips first took, binds⟩
  | .turnsEnough turns enough, stop, bindings, same => by
      obtain ⟨steps, took, binds⟩ := turns.takesTurns
      cases same
      exact ⟨steps, .turns took enough, binds⟩
  | .leafTakes current unmarked accepted coerced, stop, bindings, same => by
      cases same
      exact ⟨_, .leaf current unmarked accepted coerced, List.flatMap_singleton _ _⟩
  | .referenceTakes shape resolved built nested made filled, stop, bindings, same => by
      obtain ⟨inside, took, binds⟩ := nested.takes _ _ rfl
      cases same
      exact ⟨_, .reference shape resolved built took made (binds ▸ filled),
        List.flatMap_singleton _ _⟩
  | .sequenceFails _, _, _, same | .choiceEnd, _, _, same | .turnsTooFew _ _, _, _, same
  | .leafRefuses _, _, _, same | .referenceFails _ _ _ _, _, _, same => by cases same

theorem Iterates.takesTurns {site : Site} {inner : Tree} {bound : Bound}
    {taken start total stop : Nat} {bindings : List Binding} :
    Iterates env stream site inner bound taken start total stop bindings →
      ∃ steps, TakesTurns env stream site inner bound taken start total stop steps ∧
        steps.flatMap Step.bindings = bindings
  | .full full => ⟨[], .full full, rfl⟩
  | .fails allowed turn => ⟨[], .fails allowed turn, rfl⟩
  | .idles allowed turn => by
      obtain ⟨steps, took, binds⟩ := turn.takes _ _ rfl
      exact ⟨steps, .idles allowed took, binds⟩
  | .advances allowed turn moved rest => by
      obtain ⟨steps, took, binds⟩ := turn.takes _ _ rfl
      obtain ⟨later, tookRest, bindsRest⟩ := rest.takesTurns
      refine ⟨steps ++ later, .advances allowed took moved tookRest, ?_⟩
      rw [List.flatMap_append, binds, bindsRest]
end

end Adequacy

/-- Steps that share out a stretch of tokens: they lie in it one behind the other, and their leaves
take each of its tokens once, in order. -/
structure Step.ShareOut (start stop : Nat) (steps : List Step) : Prop where
  ordered : start ≤ stop
  within : ∀ step ∈ steps, start ≤ step.start ∧ step.start ≤ step.stop ∧ step.stop ≤ stop
  apart : steps.Pairwise fun step later => step.stop ≤ later.start
  indexes : Step.indexesAll steps = List.range' start (stop - start)

namespace Step.ShareOut

variable {start middle stop : Nat} {steps later : List Step}

theorem nil (start : Nat) : ShareOut start start [] :=
  ⟨Nat.le_refl start, by simp, .nil, by rw [Nat.sub_self, List.range'_zero]; rfl⟩

theorem append (first : ShareOut start middle steps) (rest : ShareOut middle stop later) :
    ShareOut start stop (steps ++ later) where
  ordered := Nat.le_trans first.ordered rest.ordered
  within := by
    intro step inside
    rcases List.mem_append.mp inside with early | late
    · have bounds := first.within step early
      have further := rest.ordered
      omega
    · have bounds := rest.within step late
      have before := first.ordered
      omega
  apart := by
    refine List.pairwise_append.mpr ⟨first.apart, rest.apart, ?_⟩
    intro step early other late
    exact Nat.le_trans (first.within step early).2.2 (rest.within other late).1
  indexes := by
    have before := first.ordered
    have further := rest.ordered
    have whole : stop - start = (middle - start) + (stop - middle) := by omega
    have joint : start + (middle - start) = middle := by omega
    rw [Step.indexesAll_append, first.indexes, rest.indexes, whole, ← List.range'_append_1, joint]

theorem leaf (index : Nat) (taker : Leaf) (bindings : List Binding) :
    ShareOut index (index + 1) [.leaf index taker bindings] where
  ordered := Nat.le_succ index
  within := by
    intro step inside
    rw [List.mem_singleton.mp inside]
    exact ⟨Nat.le_refl _, Nat.le_succ _, Nat.le_refl _⟩
  apart := List.pairwise_singleton _ _
  indexes := by
    rw [Nat.add_sub_cancel_left]
    rfl

theorem reference (inside : ShareOut start stop steps) (field : Field) (shape : ShapeId)
    (item : Value) :
    ShareOut start stop [.reference start stop field shape item steps] where
  ordered := inside.ordered
  within := by
    intro step held
    rw [List.mem_singleton.mp held]
    exact ⟨Nat.le_refl _, inside.ordered, Nat.le_refl _⟩
  apart := List.pairwise_singleton _ _
  indexes := by
    rw [Step.indexesAll, Step.indexes, Step.indexesAll, List.append_nil, inside.indexes]

end Step.ShareOut

section Order

variable {env : Environment} {stream : TokenStream}

mutual
theorem Takes.shareOut {site : Site} {tree : Tree} {start stop : Nat} {steps : List Step} :
    Takes env stream site tree start stop steps → Step.ShareOut start stop steps
  | .empty => .nil start
  | .sequenceEnd => .nil start
  | .sequenceStep first rest => first.shareOut.append rest.shareOut
  | .choiceTakes first => first.shareOut
  | .choiceSkips _ rest => rest.shareOut
  | .turns turns _ => turns.shareOut
  | .leaf _ _ _ _ => .leaf start _ _
  | .reference shape _ _ nested _ _ => nested.shareOut.reference _ shape _

theorem TakesTurns.shareOut {site : Site} {inner : Tree} {bound : Bound}
    {taken start total stop : Nat} {steps : List Step} :
    TakesTurns env stream site inner bound taken start total stop steps →
      Step.ShareOut start stop steps
  | .full _ => .nil start
  | .fails _ _ => .nil start
  | .idles _ turn => turn.shareOut
  | .advances _ turn _ rest => turn.shareOut.append rest.shareOut
end

/-- What is behind a step: a leaf took a token and bound what its text gives; a reference matched
the tree of its shape and filled a new record. -/
def Step.Founded (env : Environment) (stream : TokenStream) : Step → Prop
  | .leaf index taker bindings => ∃ token, stream.token? index = some token ∧ token.isEnd = false ∧
      taker.accepts token = true ∧ taker.bind token = .ok bindings
  | .reference start stop _ shape item inside => ∃ root blank, env.root shape = .ok root ∧
      Takes env stream ⟨some shape, 0⟩ root start stop inside ∧ env.fresh shape = .ok blank ∧
      env.fill (inside.flatMap Step.bindings) blank = .ok item

mutual
theorem Takes.founded {site : Site} {tree : Tree} {start stop : Nat} {steps : List Step} :
    Takes env stream site tree start stop steps → ∀ step ∈ steps, step.Founded env stream
  | .empty | .sequenceEnd => by simp
  | .sequenceStep first rest => List.forall_mem_append.mpr ⟨first.founded, rest.founded⟩
  | .choiceTakes first => first.founded
  | .choiceSkips _ rest => rest.founded
  | .turns turns _ => turns.founded
  | .leaf current unmarked accepted coerced =>
      List.forall_mem_singleton.mpr ⟨_, current, unmarked, accepted, coerced⟩
  | .reference shape _ built nested made filled =>
      List.forall_mem_singleton.mpr ⟨_, _, built, nested, made, filled⟩

theorem TakesTurns.founded {site : Site} {inner : Tree} {bound : Bound}
    {taken start total stop : Nat} {steps : List Step} :
    TakesTurns env stream site inner bound taken start total stop steps →
      ∀ step ∈ steps, step.Founded env stream
  | .full _ | .fails _ _ => by simp
  | .idles _ turn => turn.founded
  | .advances _ turn _ rest => List.forall_mem_append.mpr ⟨turn.founded, rest.founded⟩
end

end Order

/-- A match that succeeds took steps that bind what it binds. -/
theorem Tree.takes_of_run {env : Environment} {stream : TokenStream} {fuel : Nat} {site : Site}
    {tree : Tree} {state next : MatchState} {bindings : List Binding}
    (within : state.index ≤ stream.size)
    (ran : tree.run env stream fuel site state = .matched bindings next) :
    ∃ steps, Takes env stream site tree state.index next.index steps ∧
      steps.flatMap Step.bindings = bindings := by
  have found :
      (tree.run env stream fuel site state).verdict? = some (.success next.index bindings) := by
    rw [ran]
    rfl
  exact (run_sound env stream fuel within found).takes _ _ rfl

end RecordGrammar
