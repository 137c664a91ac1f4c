import RecordGrammar.Proofs.Match.Nesting
import RecordGrammar.Proofs.Match.Refusal

namespace RecordGrammar

/-! A match depends on no token behind the furthest one that it has looked at.

A leaf that takes its token notes nothing, but the match then stands behind that token; a leaf that
refuses is noted. So where no choice is empty, a failure has looked no further than the furthest
failure noted, and a success no further than that or the index where it stops. -/

namespace TokenStream

/-- Two streams have the same tokens up to an index, and at it. -/
def AgreeTo (first second : TokenStream) (last : Nat) : Prop :=
  ∀ index, index ≤ last → first.token? index = second.token? index

namespace AgreeTo

variable {first second : TokenStream} {last index : Nat}

theorem mono (agree : first.AgreeTo second last) (below : index ≤ last) :
    first.AgreeTo second index :=
  fun place within => agree place (Nat.le_trans within below)

theorem lt_size (agree : first.AgreeTo second last) (below : index ≤ last)
    (inside : index < first.size) :
    index < second.size := by
  have found : first.token? index = some first.tokens[index] := Array.getElem?_eq_getElem inside
  rw [agree index below] at found
  exact (Array.getElem?_eq_some_iff.mp found).1

end AgreeTo

end TokenStream

/-- Of a match that has begun in a state and come to a verdict: it has noted whatever it has looked
at, and where another stream has the same tokens, it would have come to the same there. -/
def Outcome.Foretells (first second : TokenStream) (start : MatchState) : Outcome → Outcome → Prop
  | .matched bindings next, other =>
      start.index ≤ next.index ∧ start.cursor.furthest ≤ next.cursor.furthest ∧
        (first.AgreeTo second (max next.cursor.furthest next.index) →
          other = .matched bindings next)
  | .failed mismatch next, other =>
      start.index ≤ next.cursor.furthest ∧ start.cursor.furthest ≤ next.cursor.furthest ∧
        (first.AgreeTo second next.cursor.furthest → other = .failed mismatch next)
  | _, _ => True

namespace Outcome.Foretells

variable {first second : TokenStream} {start middle : MatchState} {outcome other another : Outcome}

/-- What a match does from some point on, it does in the other stream as well, if it comes to that
point there. -/
theorem following (onward : start.index ≤ middle.index)
    (further : start.cursor.furthest ≤ middle.cursor.furthest)
    (same : first.AgreeTo second (max middle.cursor.furthest middle.index) → other = another)
    (later : outcome.Foretells first second middle another) :
    outcome.Foretells first second start other := by
  cases outcome with
  | matched bindings next =>
      obtain ⟨forward, beyond, agrees⟩ := later
      refine ⟨by omega, by omega, fun agree => ?_⟩
      rw [same (agree.mono (by omega)), agrees agree]
  | failed mismatch next =>
      obtain ⟨noted, beyond, agrees⟩ := later
      refine ⟨by omega, by omega, fun agree => ?_⟩
      rw [same (agree.mono (by omega)), agrees agree]
  | _ => trivial

/-- Where the other stream does not even have the token to begin with, nothing is said about it. -/
theorem of_size_le (foretells : outcome.Foretells first second start other)
    (inside : start.index < first.size) (beyond : second.size ≤ start.index) :
    outcome.Foretells first second start another := by
  cases outcome with
  | matched bindings next =>
      obtain ⟨forward, further, _⟩ := foretells
      refine ⟨forward, further, fun agree => ?_⟩
      have present : start.index < second.size := agree.lt_size (by omega) inside
      omega
  | failed mismatch next =>
      obtain ⟨noted, further, _⟩ := foretells
      refine ⟨noted, further, fun agree => ?_⟩
      have present := agree.lt_size noted inside
      omega
  | _ => trivial

theorem prepend (foretells : outcome.Foretells first second start other) (bindings : List Binding) :
    (outcome.prepend bindings).Foretells first second start (other.prepend bindings) := by
  cases outcome with
  | matched later next =>
      obtain ⟨forward, further, agrees⟩ := foretells
      exact ⟨forward, further, fun agree => by rw [agrees agree]; rfl⟩
  | failed mismatch next =>
      obtain ⟨noted, further, agrees⟩ := foretells
      exact ⟨noted, further, fun agree => by rw [agrees agree]; rfl⟩
  | _ => trivial

/-- After a failure, a match goes on from where it began. -/
theorem resume {mismatch : Mismatch} {next : MatchState} {further furtherToo : MatchState → Outcome}
    (foretells : (Outcome.failed mismatch next).Foretells first second start other)
    (inside : start.index < first.size)
    (same : other = .failed mismatch next → another = next.resume second start.index furtherToo)
    (later : (further (next.goto start.index)).Foretells first second (next.goto start.index)
      (furtherToo (next.goto start.index))) :
    (next.resume first start.index further).Foretells first second start another := by
  obtain ⟨noted, beyond, agrees⟩ := foretells
  have back : start.index ≤ (next.goto start.index).index := Nat.le_refl _
  rw [next.resume_eq _ (Nat.le_of_lt inside)]
  refine following back beyond (fun agree => ?_) later
  have within : start.index < second.size := agree.lt_size (Nat.le_max_right _ _) inside
  rw [same (agrees (agree.mono (Nat.le_max_left _ _))), next.resume_eq _ (Nat.le_of_lt within)]

theorem orRestore (foretells : outcome.Foretells first second start other)
    (inside : start.index < first.size) :
    (outcome.orRestore first start.index).Foretells first second start
      (other.orRestore second start.index) := by
  cases outcome with
  | matched later next =>
      obtain ⟨forward, further, agrees⟩ := foretells
      exact ⟨forward, further, fun agree => by rw [agrees agree]; rfl⟩
  | failed mismatch next =>
      exact foretells.resume inside (fun failed => by rw [failed]; rfl)
        ⟨foretells.1, Nat.le_refl _, fun _ => rfl⟩
  | _ => trivial

end Outcome.Foretells

namespace Cursor

theorem index_le_expect_furthest (cursor : Cursor) (wanted : String) :
    cursor.index ≤ (cursor.expect wanted).furthest := by
  unfold expect
  split
  · exact Nat.le_refl _
  · rename_i shallow
    split <;> exact Nat.le_of_not_lt shallow

/-- Whether tokens are left over is a matter of the token at hand. -/
theorem atEnd_congr {first second : TokenStream} {cursor : Cursor}
    (same : first.token? cursor.index = second.token? cursor.index) :
    cursor.atEnd second = cursor.atEnd first := by
  simp only [atEnd, current?, same]

end Cursor

namespace Leaf

/-- Of the stream, a leaf looks at nothing but the token at hand. -/
theorem run_congr {first second : TokenStream} (leaf : Leaf) {state : MatchState}
    (same : first.token? state.index = second.token? state.index) :
    leaf.run second state = leaf.run first state := by
  have here : first.token? state.cursor.index = second.token? state.cursor.index := same
  simp only [run, refuse, Cursor.mismatch, Cursor.position?, Cursor.current?, ← here]
  cases found : (first.token? state.cursor.index).filter fun token =>
    !token.isEnd && leaf.accepts token with
  | none => rfl
  | some token =>
      have taken := (Option.filter_eq_some_iff.mp found).1
      have inFirst : state.cursor.index < first.size := (Array.getElem?_eq_some_iff.mp taken).1
      have inSecond : state.cursor.index < second.size :=
        (Array.getElem?_eq_some_iff.mp (here ▸ taken)).1
      simp only [Cursor.advance, if_pos inFirst, if_pos inSecond]

theorem index_le_of_run_failed {stream : TokenStream} {leaf : Leaf} {state next : MatchState}
    {mismatch : Mismatch} (ran : leaf.run stream state = .failed mismatch next) :
    state.index ≤ next.cursor.furthest := by
  unfold run refuse at ran
  split at ran
  · cases ran
    exact state.cursor.index_le_expect_furthest _
  · split at ran
    · cases ran
    · cases ran
      exact state.cursor.index_le_expect_furthest _

theorem run_foretells (first second : TokenStream) (leaf : Leaf) (state : MatchState) :
    (leaf.run first state).Foretells first second state (leaf.run second state) := by
  have keeps := leaf.run_keeps first state
  cases ran : leaf.run first state with
  | matched bindings next =>
      rw [ran] at keeps
      have forward := keeps.1.ordered
      exact ⟨forward, keeps.2, fun agree => (leaf.run_congr (agree _ (by omega))).trans ran⟩
  | failed mismatch next =>
      rw [ran] at keeps
      have noted := index_le_of_run_failed ran
      exact ⟨noted, keeps.2, fun agree => (leaf.run_congr (agree _ noted)).trans ran⟩
  | _ => trivial

end Leaf

namespace Tree

variable {env : Environment} {first second : TokenStream}
  {left right : Site → Tree → MatchState → Outcome}

/-- Two ways of running trees without empty choices, of which one foretells the other. -/
def Foretelling (first second : TokenStream)
    (left right : Site → Tree → MatchState → Outcome) : Prop :=
  ∀ site tree state, tree.NoEmptyChoice → state.index < first.size →
    (left site tree state).Foretells first second state (right site tree state)

theorem inOrder_foretells (kept : Kept first left)
    (foretelling : Foretelling first second left right) (site : Site) {members : List Tree}
    (whole : ∀ member ∈ members, member.NoEmptyChoice) (state : MatchState)
    (inside : state.index < first.size) :
    (inOrder left site members state).Foretells first second state
      (inOrder right site members state) := by
  induction members generalizing site state with
  | nil => exact ⟨Nat.le_refl _, Nat.le_refl _, fun _ => rfl⟩
  | cons member rest ih =>
      have keeps := kept site member state (Nat.le_of_lt inside)
      have foretells := foretelling site member state (whole member (by simp)) inside
      simp only [inOrder]
      cases ran : left site member state with
      | matched bindings next =>
          rw [ran] at keeps foretells
          obtain ⟨forward, further, agrees⟩ := foretells
          have later := ih (site.after member) (fun tree held => whole tree (by simp [held])) next
            (keeps.1.lt_size inside)
          exact .following forward further (fun agree => by rw [agrees agree])
            (later.prepend bindings)
      | failed mismatch next =>
          rw [ran] at foretells
          obtain ⟨noted, further, agrees⟩ := foretells
          exact ⟨noted, further, fun agree => by rw [agrees agree]⟩
      | _ => trivial

theorem firstOf_foretells (foretelling : Foretelling first second left right)
    {fallback fallbackToo : MatchState → Outcome}
    (falls : ∀ state : MatchState, state.index ≤ state.cursor.furthest →
      (fallback state).Foretells first second state (fallbackToo state))
    (site : Site) {branches : List Tree} (whole : ∀ branch ∈ branches, branch.NoEmptyChoice)
    (state : MatchState) (inside : state.index < first.size)
    (noted : branches ≠ [] ∨ state.index ≤ state.cursor.furthest) :
    (firstOf first left fallback site branches state).Foretells first second state
      (firstOf second right fallbackToo site branches state) := by
  induction branches generalizing site state with
  | nil => exact falls state (noted.resolve_left (by simp))
  | cons branch rest ih =>
      have foretells := foretelling site branch state (whole branch (by simp)) inside
      simp only [firstOf]
      cases ran : left site branch state with
      | matched bindings next =>
          rw [ran] at foretells
          obtain ⟨forward, further, agrees⟩ := foretells
          exact ⟨forward, further, fun agree => by rw [agrees agree]⟩
      | failed mismatch next =>
          rw [ran] at foretells
          exact foretells.resume inside (fun failed => by rw [failed])
            (ih (site.after branch) (fun tree held => whole tree (by simp [held]))
              (next.goto state.index) inside (.inr foretells.1))
      | _ => trivial

theorem endTurns_foretells (bound : Bound) (entry taken : Nat) (failure : Option Mismatch)
    (state : MatchState) (entered : entry < first.size)
    (noted : taken < bound.least → entry ≤ state.index ∧ state.index ≤ state.cursor.furthest) :
    (endTurns first bound entry taken failure state).Foretells first second state
      (endTurns second bound entry taken failure state) := by
  unfold endTurns
  split
  · rename_i few
    obtain ⟨behind, noted⟩ := noted few
    simp only [state.resume_eq _ (Nat.le_of_lt entered)]
    cases failure with
    | none => trivial
    | some mismatch =>
        refine ⟨noted, Nat.le_refl _, fun agree => ?_⟩
        have within : entry < second.size := agree.lt_size (Nat.le_trans behind noted) entered
        simp only [state.resume_eq _ (Nat.le_of_lt within)]
  · exact ⟨Nat.le_refl _, Nat.le_refl _, fun _ => rfl⟩

/-- One turn, if the turns after it are known. -/
theorem turn_foretells {left right : MatchState → Outcome}
    (kept : ∀ state, state.index ≤ first.size → (left state).Keeps first state)
    (foretelling : ∀ state, state.index < first.size →
      (left state).Foretells first second state (right state))
    (bound : Bound) {entry fuel fuelToo : Nat} (taken : Nat) {state : MatchState}
    (behind : entry ≤ state.index) (inside : state.index < first.size)
    (later : ∀ next : MatchState, state.index < next.index → next.index < first.size →
      (turns first left bound entry fuel (taken + 1) next).Foretells first second next
        (turns second right bound entry fuelToo (taken + 1) next)) :
    (turns first left bound entry (fuel + 1) taken state).Foretells first second state
      (turns second right bound entry (fuelToo + 1) taken state) := by
  have keeps := kept state (Nat.le_of_lt inside)
  have foretells := foretelling state inside
  simp only [turns]
  split
  · cases ran : left state with
    | matched bindings next =>
        rw [ran] at keeps foretells
        obtain ⟨forward, further, agrees⟩ := foretells
        have within := keeps.1.lt_size inside
        simp only
        split
        · rename_i idle
          have small := bound.least_le_one
          refine .following forward further (fun agree => ?_) (Outcome.Foretells.prepend
            (endTurns_foretells bound entry (taken + 1) none next (by omega) (fun few => by omega))
              bindings)
          rw [agrees agree]
          simp only [if_pos idle]
        · rename_i moved
          refine .following forward further (fun agree => ?_)
            ((later next (by omega) within).prepend bindings)
          rw [agrees agree]
          simp only [if_neg moved]
    | failed mismatch next =>
        rw [ran] at foretells
        exact foretells.resume inside (fun failed => by rw [failed])
          (endTurns_foretells bound entry taken (some mismatch) _ (by omega)
            (fun _ => ⟨behind, foretells.1⟩))
    | _ => trivial
  · rename_i full
    exact endTurns_foretells bound entry taken none state (by omega)
      (fun few => absurd few (Nat.not_lt.mpr (Bound.least_le_of_not_allows full)))

theorem turns_foretells {left right : MatchState → Outcome}
    (kept : ∀ state, state.index ≤ first.size → (left state).Keeps first state)
    (foretelling : ∀ state, state.index < first.size →
      (left state).Foretells first second state (right state))
    (bound : Bound) {entry : Nat} (fuel fuelToo taken : Nat) (state : MatchState)
    (behind : entry ≤ state.index) (inside : state.index < first.size)
    (enough : second.size ≤ fuelToo + state.index) :
    (turns first left bound entry fuel taken state).Foretells first second state
      (turns second right bound entry fuelToo taken state) := by
  induction fuel generalizing fuelToo taken state with
  | zero =>
      simp only [turns]
      split
      · trivial
      · rename_i full
        rw [turns_eq_endTurns entry fuelToo state (by simpa using full)]
        exact endTurns_foretells bound entry taken none state (by omega)
          (fun few => absurd few (Nat.not_lt.mpr (Bound.least_le_of_not_allows full)))
  | succ fuel ih =>
      have turn (fuelToo : Nat) (enough : second.size ≤ fuelToo + 1 + state.index) :=
        turn_foretells kept foretelling bound taken behind inside fun next moved within =>
          ih fuelToo (taken + 1) next (by omega) within (by omega)
      cases fuelToo with
      | zero =>
          -- Without any fuel, the other stream has no token here either.
          exact (turn second.size (by omega)).of_size_le inside (by omega)
      | succ fuelToo => exact turn fuelToo enough

theorem complete_foretells (env : Environment) (shape : ShapeId) (field : Field)
    (bindings : List Binding) (state : MatchState) :
    (complete env shape field bindings state).Foretells first second state
      (complete env shape field bindings state) := by
  unfold complete
  simp only
  split
  · trivial
  · split
    · trivial
    · exact ⟨Nat.le_refl _, Nat.le_refl _, fun _ => rfl⟩

theorem runNode_foretells (compiled : env.NoEmptyChoice) (kept : Kept first left)
    (foretelling : Foretelling first second left right) :
    Foretelling first second (runNode env first left) (runNode env second right) := by
  intro site tree state whole inside
  cases tree with
  | empty => exact ⟨Nat.le_refl _, Nat.le_refl _, fun _ => rfl⟩
  | leaf taker => exact taker.run_foretells first second state
  | sequence members =>
      have held := (every_sequence.mp whole).2
      exact (inOrder_foretells kept foretelling site held state inside).orRestore inside
  | alternation branches =>
      obtain ⟨some, held⟩ := every_alternation.mp whole
      refine firstOf_foretells foretelling ?_ site held state inside
        (.inl fun none => some (none ▸ rfl))
      intro next noted
      refine ⟨noted, Nat.le_refl _, fun agree => ?_⟩
      have here : first.token? next.cursor.index = second.token? next.cursor.index := agree _ noted
      simp only [Cursor.mismatch, Cursor.position?, Cursor.current?, here]
  | repetition inner bound =>
      have held := (every_repetition.mp whole).2
      exact turns_foretells (kept site inner)
        (fun state => foretelling site inner state held) bound _ _ 0 state
        (Nat.le_refl _) inside (by omega)
  | reference target field =>
      simp only [runNode]
      cases resolved : env.resolve site target with
      | error fault => trivial
      | ok shape =>
          simp only
          cases built : env.root shape with
          | error fault => trivial
          | ok root =>
              have foretells := foretelling ⟨some shape, 0⟩ root (state.note (.reached site shape))
                (compiled shape root built) inside
              simp only
              cases ran : left ⟨some shape, 0⟩ root (state.note (.reached site shape)) with
              | matched bindings next =>
                  rw [ran] at foretells
                  obtain ⟨forward, further, agrees⟩ := foretells
                  exact .following forward further (fun agree => by rw [agrees agree])
                    (complete_foretells env shape field bindings next)
              | failed mismatch next =>
                  rw [ran] at foretells
                  exact foretells.resume inside (fun failed => by rw [failed]; rfl)
                    ⟨foretells.1, Nat.le_refl _, fun _ => rfl⟩
              | _ => trivial

/-- Runs with the same fuel foretell one another. -/
theorem run_foretells (compiled : env.NoEmptyChoice) (first second : TokenStream) (fuel : Nat) :
    Foretelling first second (run env first fuel) (run env second fuel) := by
  induction fuel with
  | zero =>
      intro site tree state whole inside
      trivial
  | succ fuel ih => exact runNode_foretells compiled (run_keeps env first fuel) ih

theorem outcome_foretells (compiled : env.NoEmptyChoice) (first second : TokenStream) :
    Foretelling first second (outcome env first) (outcome env second) := by
  intro site tree state whole inside
  obtain ⟨enough, agrees⟩ := run_settles env first site tree state
  obtain ⟨enoughToo, agreesToo⟩ := run_settles env second site tree state
  rw [← agrees (max enough enoughToo) (by omega), ← agreesToo (max enough enoughToo) (by omega)]
  exact run_foretells compiled first second (max enough enoughToo) site tree state whole inside

end Tree

end RecordGrammar
