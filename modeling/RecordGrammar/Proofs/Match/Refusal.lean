import RecordGrammar.Proofs.Match.Adequacy
import RecordGrammar.Proofs.Tree.Nodes

namespace RecordGrammar

/-! Refusals: which leaves are tried in the course of a match and do not take the token at hand.

`Refuses` goes by the verdicts of `Derives`, so it knows nothing of a cursor or of what is noted
there. Where no choice is empty, a match that fails has come upon a refusal. -/

/-- A leaf does not take a token, or the lack of one, and says what it wants instead. -/
inductive Leaf.Declines (leaf : Leaf) (current : Option Token) : String → Prop
  | unaccepted
      (strange : ∀ token, current = some token → token.isEnd = false → leaf.accepts token = false) :
      Declines leaf current leaf.expectation
  | uncoerced (here : current = some token) (unmarked : token.isEnd = false)
      (accepted : leaf.accepts token = true) (uncoercible : leaf.bind token = .error error) :
      Declines leaf current (leaf.expectation ++ " as " ++ leaf.field.kind.word)

/-- A turn of a group begins, as the so manieth and at an index, after turns that have each taken
something. -/
inductive TurnAt (env : Environment) (stream : TokenStream) (site : Site) (inner : Tree)
    (bound : Bound) :
    Nat → Nat → Nat → Nat → Prop
  | here : TurnAt env stream site inner bound taken start taken start
  | next (allowed : bound.allows taken = true)
      (turn : Derives env stream site inner start (.success middle bindings))
      (moved : middle ≠ start)
      (rest : TurnAt env stream site inner bound (taken + 1) middle total place) :
      TurnAt env stream site inner bound taken start total place

/-- In the course of a match of a tree from an index, a leaf is tried at a place and refuses, and so
much is wanted there. -/
inductive Refuses (env : Environment) (stream : TokenStream) :
    Site → Tree → Nat → Nat → String → Prop
  | leaf (declines : leaf.Declines (stream.token? start) wanted) :
      Refuses env stream site (.leaf leaf) start start wanted
  | member (refuses : Refuses env stream site member start place wanted) :
      Refuses env stream site (.sequence (member :: members)) start place wanted
  | members (first : Derives env stream site member start (.success middle bindings))
      (refuses : Refuses env stream (site.after member) (.sequence members) middle place wanted) :
      Refuses env stream site (.sequence (member :: members)) start place wanted
  | branch (refuses : Refuses env stream site branch start place wanted) :
      Refuses env stream site (.alternation (branch :: branches)) start place wanted
  | branches (first : Derives env stream site branch start .failure)
      (refuses : Refuses env stream (site.after branch)
        (.alternation branches) start place wanted) :
      Refuses env stream site (.alternation (branch :: branches)) start place wanted
  | turn {inner : Tree} (begins : TurnAt env stream site inner bound 0 start taken middle)
      (allowed : bound.allows taken = true)
      (refuses : Refuses env stream site inner middle place wanted) :
      Refuses env stream site (.repetition inner bound) start place wanted
  | reference (shape : ShapeId) (resolved : env.resolve site target = .ok shape)
      (built : env.root shape = .ok root)
      (refuses : Refuses env stream ⟨some shape, 0⟩ root start place wanted) :
      Refuses env stream site (.reference target field) start place wanted

/-- A leaf has one thing to say about a token. -/
theorem Leaf.Declines.unique {leaf : Leaf} {current : Option Token} {wanted other : String}
    (declines : leaf.Declines current wanted) (also : leaf.Declines current other) :
    wanted = other := by
  cases declines with
  | unaccepted strange =>
      cases also with
      | unaccepted => rfl
      | uncoerced here unmarked accepted => simp [strange _ here unmarked] at accepted
  | uncoerced here unmarked accepted =>
      cases also with
      | unaccepted strange => simp [strange _ here unmarked] at accepted
      | uncoerced => rfl

/-- A leaf does not both decline a token and take it. -/
theorem Leaf.Declines.not_bind {leaf : Leaf} {current : Option Token} {wanted : String}
    {token : Token} (declines : leaf.Declines current wanted) (here : current = some token)
    (unmarked : token.isEnd = false) (accepted : leaf.accepts token = true) :
    leaf.bind token ≠ .ok bindings := by
  cases declines with
  | unaccepted strange => simp [strange token here unmarked] at accepted
  | uncoerced also _ _ uncoercible =>
      cases here.symm.trans also
      simp [uncoercible]

variable {env : Environment} {stream : TokenStream} {site : Site} {start : Nat}

theorem Derives.unique {tree : Tree} {verdict other : Verdict} (within : start ≤ stream.size)
    (derived : Derives env stream site tree start verdict)
    (also : Derives env stream site tree start other) : verdict = other := by
  have first := Tree.verdict?_outcome derived { cursor := { index := start } } rfl within
  have second := Tree.verdict?_outcome also { cursor := { index := start } } rfl within
  exact Option.some.inj (first.symm.trans second)

section Inversion

variable {member branch inner root : Tree} {members branches : List Tree} {middle place : Nat}
  {wanted : String} {bindings : List Binding}

theorem not_refuses_empty : ¬ Refuses env stream site .empty start place wanted := by
  rintro ⟨⟩

theorem not_refuses_sequence_nil : ¬ Refuses env stream site (.sequence []) start place wanted := by
  rintro ⟨⟩

theorem not_refuses_alternation_nil :
    ¬ Refuses env stream site (.alternation []) start place wanted := by
  rintro ⟨⟩

theorem refuses_leaf_iff {leaf : Leaf} : Refuses env stream site (.leaf leaf) start place wanted ↔
    place = start ∧ leaf.Declines (stream.token? start) wanted := by
  constructor
  · rintro ⟨declines⟩
    exact ⟨rfl, declines⟩
  · rintro ⟨rfl, declines⟩
    exact .leaf declines

theorem refuses_sequence_of_success (within : start ≤ stream.size)
    (first : Derives env stream site member start (.success middle bindings)) :
    Refuses env stream site (.sequence (member :: members)) start place wanted ↔
      Refuses env stream site member start place wanted ∨
        Refuses env stream (site.after member) (.sequence members) middle place wanted := by
  constructor
  · intro refuses
    cases refuses with
    | member refuses => exact .inl refuses
    | members also refuses =>
        cases first.unique within also
        exact .inr refuses
  · rintro (early | late)
    · exact .member early
    · exact .members first late

theorem refuses_sequence_of_failure (within : start ≤ stream.size)
    (first : Derives env stream site member start .failure) :
    Refuses env stream site (.sequence (member :: members)) start place wanted ↔
      Refuses env stream site member start place wanted := by
  constructor
  · intro refuses
    cases refuses with
    | member refuses => exact refuses
    | members also refuses => cases first.unique within also
  · exact .member

theorem refuses_alternation_of_success (within : start ≤ stream.size)
    (first : Derives env stream site branch start (.success middle bindings)) :
    Refuses env stream site (.alternation (branch :: branches)) start place wanted ↔
      Refuses env stream site branch start place wanted := by
  constructor
  · intro refuses
    cases refuses with
    | branch refuses => exact refuses
    | branches also refuses => cases first.unique within also
  · exact .branch

theorem refuses_alternation_of_failure
    (first : Derives env stream site branch start .failure) :
    Refuses env stream site (.alternation (branch :: branches)) start place wanted ↔
      Refuses env stream site branch start place wanted ∨
        Refuses env stream (site.after branch) (.alternation branches) start place wanted := by
  constructor
  · intro refuses
    cases refuses with
    | branch refuses => exact .inl refuses
    | branches also refuses => exact .inr refuses
  · rintro (early | late)
    · exact .branch early
    · exact .branches first late

theorem refuses_reference_iff {target : ShapeRef} {field : Field} {shape : ShapeId}
    (resolved : env.resolve site target = .ok shape) (built : env.root shape = .ok root) :
    Refuses env stream site (.reference target field) start place wanted ↔
      Refuses env stream ⟨some shape, 0⟩ root start place wanted := by
  constructor
  · intro refuses
    cases refuses with
    | reference other also builtToo refuses =>
        cases resolved.symm.trans also
        cases built.symm.trans builtToo
        exact refuses
  · exact .reference shape resolved built

/-- The refusals in the turns of a group from one of them on. -/
def TurnsRefuse (env : Environment) (stream : TokenStream) (site : Site) (inner : Tree)
    (bound : Bound) (taken start place : Nat) (wanted : String) : Prop :=
  ∃ total middle, TurnAt env stream site inner bound taken start total middle ∧
    bound.allows total = true ∧ Refuses env stream site inner middle place wanted

theorem refuses_repetition_iff {bound : Bound} :
    Refuses env stream site (.repetition inner bound) start place wanted ↔
      TurnsRefuse env stream site inner bound 0 start place wanted := by
  constructor
  · intro refuses
    cases refuses with
    | turn begins allowed refuses => exact ⟨_, _, begins, allowed, refuses⟩
  · rintro ⟨_, _, begins, allowed, refuses⟩
    exact .turn begins allowed refuses

theorem not_turnsRefuse_of_full {bound : Bound} {taken : Nat} (full : bound.allows taken = false) :
    ¬ TurnsRefuse env stream site inner bound taken start place wanted := by
  rintro ⟨total, middle, begins, allowedToo, _⟩
  cases begins with
  | here => exact absurd allowedToo (by simp [full])
  | next allowed turn moved rest => exact absurd allowed (by simp [full])

theorem turnsRefuse_of_stop {bound : Bound} {taken : Nat} (within : start ≤ stream.size)
    (allowed : bound.allows taken = true) {verdict : Verdict}
    (turn : Derives env stream site inner start verdict)
    (stops : ∀ middle bindings, verdict = .success middle bindings → middle = start) :
    TurnsRefuse env stream site inner bound taken start place wanted ↔
      Refuses env stream site inner start place wanted := by
  constructor
  · rintro ⟨total, middle, begins, _, refuses⟩
    cases begins with
    | here => exact refuses
    | next _ also moved rest => exact absurd (stops _ _ (turn.unique within also)) moved
  · exact fun refuses => ⟨_, _, .here, allowed, refuses⟩

theorem turnsRefuse_of_advance {bound : Bound} {taken : Nat} (within : start ≤ stream.size)
    (allowed : bound.allows taken = true)
    (turn : Derives env stream site inner start (.success middle bindings))
    (moved : middle ≠ start) :
    TurnsRefuse env stream site inner bound taken start place wanted ↔
      Refuses env stream site inner start place wanted ∨
        TurnsRefuse env stream site inner bound (taken + 1) middle place wanted := by
  constructor
  · rintro ⟨total, last, begins, allowedToo, refuses⟩
    cases begins with
    | here => exact .inl refuses
    | next _ also _ rest =>
        cases turn.unique within also
        exact .inr ⟨total, last, rest, allowedToo, refuses⟩
  · rintro (early | ⟨total, last, rest, allowedToo, refuses⟩)
    · exact ⟨_, _, .here, allowed, early⟩
    · exact ⟨total, last, .next allowed turn moved rest, allowedToo, refuses⟩

end Inversion

theorem Derives.passes {tree : Tree} {stop : Nat} {bindings : List Binding}
    (within : start ≤ stream.size)
    (derived : Derives env stream site tree start (.success stop bindings)) :
    stream.Passes start stop := by
  have found := Tree.verdict?_outcome derived { cursor := { index := start } } rfl within
  obtain ⟨next, ran, rfl⟩ := Outcome.matched_of_verdict? found
  exact Tree.outcome_passes ran within

namespace Tree

/-- No alternation in a tree is without branches. -/
abbrev NoEmptyChoice (tree : Tree) : Prop := tree.Every fun node => node ≠ .alternation []

end Tree

/-- No shape has a tree with an empty choice. -/
def Environment.NoEmptyChoice (env : Environment) : Prop :=
  ∀ shape root, env.root shape = .ok root → root.NoEmptyChoice

theorem Iterates.taken_le {inner : Tree} {taken start total stop : Nat} {bindings : List Binding} :
    Iterates env stream site inner bound taken start total stop bindings → taken ≤ total
  | .full _ => Nat.le_refl _
  | .fails _ _ => Nat.le_refl _
  | .idles _ _ => Nat.le_succ _
  | .advances _ _ _ rest => Nat.le_of_succ_le rest.taken_le

theorem Verdict.eq_failure_of_prepend {verdict : Verdict} {bindings : List Binding}
    (failed : verdict.prepend bindings = .failure) : verdict = .failure := by
  cases verdict with
  | success stop later => cases failed
  | failure => rfl

theorem Leaf.exists_declines {leaf : Leaf} {current : Option Token}
    (refused : ∀ token bindings, current = some token → token.isEnd = false →
      leaf.accepts token = true → leaf.bind token ≠ .ok bindings) :
      ∃ wanted, leaf.Declines current wanted := by
  by_cases suits : ∃ token, current = some token ∧ token.isEnd = false ∧ leaf.accepts token = true
  · obtain ⟨token, here, unmarked, accepted⟩ := suits
    cases bound : leaf.bind token with
    | ok bindings => exact absurd bound (refused token bindings here unmarked accepted)
    | error error => exact ⟨_, .uncoerced here unmarked accepted bound⟩
  · refine ⟨_, .unaccepted fun token here unmarked => ?_⟩
    exact Bool.eq_false_iff.mpr fun accepted => suits ⟨token, here, unmarked, accepted⟩

mutual
/-- A match that fails has come upon a leaf that refuses, at its own index or behind it. -/
theorem Derives.refuses (compiled : env.NoEmptyChoice) {site : Site} {tree : Tree} {start : Nat}
    {verdict : Verdict} :
    Derives env stream site tree start verdict → verdict = .failure → start ≤ stream.size →
      tree.NoEmptyChoice → ∃ place wanted, start ≤ place ∧
      Refuses env stream site tree start place wanted
  | .sequenceFails first, _, within, whole => by
      have inside := (Tree.every_sequence.mp whole).2
      obtain ⟨place, wanted, behind, refuses⟩ :=
        first.refuses compiled rfl within (inside _ (by simp))
      exact ⟨place, wanted, behind, .member refuses⟩
  | .sequenceStep first rest, failed, within, whole => by
      have inside := (Tree.every_sequence.mp whole).2
      have passed := first.passes within
      obtain ⟨place, wanted, behind, refuses⟩ := rest.refuses compiled
        (Verdict.eq_failure_of_prepend failed) (passed.le_size within)
        (.sequence (by simp) fun member held => inside member (List.mem_cons_of_mem _ held))
      exact ⟨place, wanted, Nat.le_trans passed.ordered behind, .members first refuses⟩
  | .choiceEnd, _, _, whole => absurd rfl (Tree.every_alternation.mp whole).1
  | .empty, failed, _, _ | .sequenceEnd, failed, _, _ | .choiceTakes _, failed, _, _
  | .turnsEnough _ _, failed, _, _ | .leafTakes _ _ _ _, failed, _, _
  | .referenceTakes _ _ _ _ _ _, failed, _, _ => by cases failed
  | .choiceSkips first _, _, within, whole => by
      have inside := (Tree.every_alternation.mp whole).2
      obtain ⟨place, wanted, behind, refuses⟩ :=
        first.refuses compiled rfl within (inside _ (by simp))
      exact ⟨place, wanted, behind, .branch refuses⟩
  | .turnsTooFew turns few, _, within, whole => by
      obtain ⟨place, wanted, behind, refuses⟩ :=
        turns.refuses compiled few within (Tree.every_repetition.mp whole).2
      exact ⟨place, wanted, behind, refuses_repetition_iff.mpr refuses⟩
  | .leafRefuses refused, _, _, _ => by
      obtain ⟨wanted, declines⟩ := Leaf.exists_declines refused
      exact ⟨_, wanted, Nat.le_refl _, .leaf declines⟩
  | .referenceFails shape resolved built nested, _, within, _ => by
      obtain ⟨place, wanted, behind, refuses⟩ :=
        nested.refuses compiled rfl within (compiled shape _ built)
      exact ⟨place, wanted, behind, .reference shape resolved built refuses⟩

/-- A group that has too few turns has none at all. -/
theorem Iterates.refuses (compiled : env.NoEmptyChoice) {site : Site} {inner : Tree} {bound : Bound}
    {taken start total stop : Nat} {bindings : List Binding} :
    Iterates env stream site inner bound taken start total stop bindings → total < bound.least →
      start ≤ stream.size → inner.NoEmptyChoice →
      ∃ place wanted, start ≤ place ∧
      TurnsRefuse env stream site inner bound taken start place wanted
  | .full full, few, _, _ => by
      have enough : bound.least ≤ taken := Bound.least_le_of_not_allows (by simp [full])
      exact absurd few (Nat.not_lt.mpr enough)
  | .fails allowed turn, _, within, whole => by
      obtain ⟨place, wanted, behind, refuses⟩ := turn.refuses compiled rfl within whole
      exact ⟨place, wanted, behind, _, _, .here, allowed, refuses⟩
  | .idles _ _, few, _, _ => by
      have small := bound.least_le_one
      omega
  | .advances _ _ _ rest, few, _, _ => by
      have small := bound.least_le_one
      have taken := rest.taken_le
      omega
end

theorem TurnAt.passes {inner : Tree} {bound : Bound} {taken total middle : Nat}
    (begins : TurnAt env stream site inner bound taken start total middle)
    (within : start ≤ stream.size) :
    stream.Passes start middle := by
  induction begins with
  | here => exact .refl stream _
  | next _ turn _ _ ih =>
      have passed := turn.passes within
      exact passed.trans (ih (passed.le_size within))

/-- No leaf is tried behind the token that marks the end. -/
theorem Refuses.lt_size {tree : Tree} {place : Nat} {wanted : String}
    (refuses : Refuses env stream site tree start place wanted) (inside : start < stream.size) :
    place < stream.size := by
  induction refuses with
  | leaf => exact inside
  | member _ ih | branch _ ih | reference _ _ _ _ ih => exact ih inside
  | members first _ ih => exact ih ((first.passes (Nat.le_of_lt inside)).lt_size inside)
  | branches _ _ ih => exact ih inside
  | turn begins _ _ ih => exact ih ((begins.passes (Nat.le_of_lt inside)).lt_size inside)

end RecordGrammar
