import RecordGrammar.Proofs.Match.Refusal

namespace RecordGrammar

/-! The record of failures that a cursor keeps sums up the refusals of a match: the furthest place
where a leaf refused, and what was wanted there.
-/

namespace Cursor

/-- What a cursor has noted about failures, between two points of a match, sums up some refusals. -/
structure Summarizes (before after : Cursor) (refused : Nat → String → Prop) : Prop where
  further : before.furthest ≤ after.furthest
  bounded : ∀ place wanted, refused place wanted → place ≤ after.furthest
  reached : after.furthest = before.furthest ∨ ∃ wanted, refused after.furthest wanted
  listed : ∀ wanted, wanted ∈ after.expected ↔
    refused after.furthest wanted ∨ after.furthest = before.furthest ∧ wanted ∈ before.expected
  distinct : before.expected.Nodup → after.expected.Nodup

namespace Summarizes

variable {before middle after : Cursor} {refused other : Nat → String → Prop}

theorem none (cursor : Cursor) : cursor.Summarizes cursor (fun _ _ => False) where
  further := Nat.le_refl _
  bounded := fun _ _ refused => refused.elim
  reached := .inl rfl
  listed := by simp
  distinct := id

theorem congr (summary : before.Summarizes after refused)
    (same : ∀ place wanted, refused place wanted ↔ other place wanted) :
    before.Summarizes after other := by
  have equal : refused = other :=
    funext fun place => funext fun wanted => propext (same place wanted)
  exact equal ▸ summary

theorem trans (first : before.Summarizes middle refused) (second : middle.Summarizes after other) :
    before.Summarizes after (fun place wanted => refused place wanted ∨ other place wanted) where
  further := Nat.le_trans first.further second.further
  bounded := by
    rintro place wanted (early | late)
    · exact Nat.le_trans (first.bounded place wanted early) second.further
    · exact second.bounded place wanted late
  reached := by
    rcases second.reached with still | ⟨wanted, late⟩
    · rw [still]
      rcases first.reached with unmoved | ⟨wanted, early⟩
      · exact .inl unmoved
      · exact .inr ⟨wanted, .inl early⟩
    · exact .inr ⟨wanted, .inr late⟩
  listed := by
    intro wanted
    rw [second.listed, first.listed]
    -- Earlier refusals count only if nothing has failed any further since then.
    have forward := first.further
    have onward := second.further
    constructor
    · rintro (late | ⟨still, early | ⟨unmoved, old⟩⟩)
      · exact .inl (.inr late)
      · exact .inl (.inl (still ▸ early))
      · exact .inr ⟨still.trans unmoved, old⟩
    · rintro ((early | late) | ⟨unmoved, old⟩)
      · have still : after.furthest = middle.furthest :=
          Nat.le_antisymm (first.bounded _ _ early) onward
        exact .inr ⟨still, .inl (still ▸ early)⟩
      · exact .inl late
      · exact .inr ⟨by omega, .inr ⟨by omega, old⟩⟩
  distinct := fun unique => second.distinct (first.distinct unique)

theorem goto (summary : before.Summarizes after refused) (index : Nat) :
    before.Summarizes (after.goto index) refused :=
  ⟨summary.further, summary.bounded, summary.reached, summary.listed, summary.distinct⟩

theorem expect (cursor : Cursor) (wanted : String) :
    cursor.Summarizes (cursor.expect wanted)
      (fun place other => place = cursor.index ∧ other = wanted) := by
  unfold Cursor.expect
  split
  · rename_i deeper
    exact {
      further := Nat.le_of_lt deeper
      bounded := by rintro _ _ ⟨rfl, _⟩; exact Nat.le_refl _
      reached := .inr ⟨wanted, rfl, rfl⟩
      listed := by
        intro other
        have moved : cursor.index ≠ cursor.furthest := by omega
        simp [moved]
      distinct := fun _ => by simp }
  · rename_i shallow
    split
    · rename_i fresh
      exact {
        further := Nat.le_refl _
        bounded := by rintro _ _ ⟨rfl, _⟩; exact Nat.le_of_eq fresh.1
        reached := .inl rfl
        listed := by
          intro other
          simp [fresh.1, or_comm]
        distinct := by
          intro unique
          rw [List.nodup_append]
          refine ⟨unique, by simp, ?_⟩
          rintro old member other last rfl
          rw [List.mem_singleton] at last
          exact fresh.2 (last ▸ member) }
    · rename_i known
      exact {
        further := Nat.le_refl _
        bounded := by rintro _ _ ⟨rfl, _⟩; omega
        reached := .inl rfl
        listed := by
          intro other
          constructor
          · exact fun old => .inr ⟨rfl, old⟩
          · rintro (⟨here, rfl⟩ | ⟨_, old⟩)
            · exact Decidable.not_not.mp fun absent => known ⟨here.symm, absent⟩
            · exact old
        distinct := id }

end Summarizes

end Cursor

/-- What a match notes on its way, if it ends with a verdict, sums up some refusals. -/
def Outcome.Records (start : MatchState) (refused : Nat → String → Prop) : Outcome → Prop
  | .matched _ state | .failed _ state => start.cursor.Summarizes state.cursor refused
  | _ => True

namespace Outcome.Records

variable {start middle : MatchState} {refused other : Nat → String → Prop} {outcome : Outcome}
  {stream : TokenStream}

theorem congr (records : outcome.Records start refused)
    (same : ∀ place wanted, refused place wanted ↔ other place wanted) :
    outcome.Records start other := by
  cases outcome with
  | matched | failed => exact Cursor.Summarizes.congr records same
  | _ => trivial

theorem prepend (records : outcome.Records start refused) (bindings : List Binding) :
    (outcome.prepend bindings).Records start refused := by
  cases outcome <;> exact records

theorem after (records : outcome.Records middle other)
    (before : start.cursor.Summarizes middle.cursor refused) :
    outcome.Records start (fun place wanted => refused place wanted ∨ other place wanted) := by
  cases outcome with
  | matched | failed => exact before.trans records
  | _ => trivial

theorem orRestore (records : outcome.Records start refused) {checkpoint : Nat}
    (within : checkpoint ≤ stream.size) :
    (outcome.orRestore stream checkpoint).Records start refused := by
  cases outcome with
  | failed mismatch state =>
      simp only [Outcome.orRestore, state.resume_eq _ within]
      exact Cursor.Summarizes.goto records checkpoint
  | _ => exact records

end Outcome.Records

theorem Leaf.run_records (env : Environment) (stream : TokenStream) (site : Site) (leaf : Leaf)
    (state : MatchState) :
    (leaf.run stream state).Records state (Refuses env stream site (.leaf leaf) state.index) := by
  have declined {message wanted : String}
      (declines : leaf.Declines (stream.token? state.index) wanted) :
      (Leaf.refuse stream message wanted state).Records state
        (Refuses env stream site (.leaf leaf) state.index) := by
    refine (Cursor.Summarizes.expect state.cursor wanted).congr fun place other => ?_
    rw [refuses_leaf_iff]
    constructor
    · rintro ⟨here, rfl⟩
      exact ⟨here, declines⟩
    · rintro ⟨here, also⟩
      exact ⟨here, also.unique declines⟩
  unfold Leaf.run
  split
  · rename_i absent
    refine declined (.unaccepted fun token here unmarked => ?_)
    have strange := Option.filter_eq_none_iff.mp absent token here
    simpa [unmarked] using strange
  · rename_i token found
    obtain ⟨here, suits⟩ := Option.filter_eq_some_iff.mp found
    simp only [Bool.and_eq_true, Bool.not_eq_true'] at suits
    split
    · rename_i bindings taken
      have present : state.cursor.index < stream.size := (Array.getElem?_eq_some_iff.mp here).1
      have taking (place : Nat) (wanted : String) :
          ¬ Refuses env stream site (.leaf leaf) state.index place wanted := by
        rw [refuses_leaf_iff]
        rintro ⟨_, declines⟩
        exact declines.not_bind here suits.1 suits.2 taken
      simp only [Outcome.Records, Cursor.advance, if_pos present]
      exact ((Cursor.Summarizes.none state.cursor).goto _).congr fun place wanted =>
        iff_of_false id (taking place wanted)
    · rename_i error uncoercible
      exact declined (.uncoerced here suits.1 suits.2 uncoercible)

namespace Tree

variable {env : Environment} {stream : TokenStream} {step : Site → Tree → MatchState → Outcome}

/-- A way of running trees that notes just the refusals. -/
def Recording (env : Environment) (stream : TokenStream)
    (step : Site → Tree → MatchState → Outcome) : Prop :=
  ∀ site tree state, state.index ≤ stream.size →
    (step site tree state).Records state (Refuses env stream site tree state.index)

theorem inOrder_records (kept : Kept stream step) (sound : Sound env stream step)
    (recording : Recording env stream step) (site : Site) (members : List Tree) (state : MatchState)
    (within : state.index ≤ stream.size) :
    (inOrder step site members state).Records state
      (Refuses env stream site (.sequence members) state.index) := by
  induction members generalizing site state with
  | nil => exact (Cursor.Summarizes.none _).congr fun _ _ =>
      iff_of_false id not_refuses_sequence_nil
  | cons member rest ih =>
      have keeps := kept site member state within
      have derived := @sound site member state
      have first := recording site member state within
      simp only [inOrder]
      cases ran : step site member state with
      | matched bindings next =>
          rw [ran] at keeps derived first
          have later := ih (site.after member) next (keeps.1.le_size within)
          refine ((later.after first).prepend bindings).congr fun place wanted => ?_
          exact (refuses_sequence_of_success within (derived within rfl)).symm
      | failed mismatch next =>
          rw [ran] at derived first
          exact first.congr fun place wanted =>
            (refuses_sequence_of_failure within (derived within rfl)).symm
      | _ => trivial

theorem firstOf_records (sound : Sound env stream step)
    (recording : Recording env stream step) {fallback : MatchState → Outcome}
    (falls : ∀ state, (fallback state).Records state fun _ _ => False) (site : Site)
    (branches : List Tree) (state : MatchState) (within : state.index ≤ stream.size) :
    (firstOf stream step fallback site branches state).Records state
      (Refuses env stream site (.alternation branches) state.index) := by
  induction branches generalizing site state with
  | nil => exact (falls state).congr fun _ _ => iff_of_false id not_refuses_alternation_nil
  | cons branch rest ih =>
      have derived := @sound site branch state
      have first := recording site branch state within
      simp only [firstOf]
      cases ran : step site branch state with
      | matched bindings next =>
          rw [ran] at derived first
          exact first.congr fun place wanted =>
            (refuses_alternation_of_success within (derived within rfl)).symm
      | failed mismatch next =>
          rw [ran] at derived first
          simp only [next.resume_eq _ within]
          have later := ih (site.after branch) (next.goto state.index) within
          refine (later.after (Cursor.Summarizes.goto first _)).congr fun place wanted => ?_
          exact (refuses_alternation_of_failure (derived within rfl)).symm
      | _ => trivial

theorem endTurns_records (bound : Bound) (taken : Nat) (failure : Option Mismatch)
    (state : MatchState) {entry : Nat} (entered : entry ≤ stream.size) :
    (endTurns stream bound entry taken failure state).Records state fun _ _ => False := by
  unfold endTurns
  split
  · simp only [state.resume_eq _ entered]
    cases failure with
    | some mismatch => exact (Cursor.Summarizes.none state.cursor).goto entry
    | none => trivial
  · exact .none state.cursor

theorem turns_records (kept : Kept stream step) (sound : Sound env stream step)
    (recording : Recording env stream step) (site : Site) (inner : Tree) (bound : Bound)
    {entry : Nat} (fuel taken : Nat) (state : MatchState) (within : state.index ≤ stream.size)
    (entered : entry ≤ stream.size) :
    (turns stream (step site inner) bound entry fuel taken state).Records state
      (TurnsRefuse env stream site inner bound taken state.index) := by
  induction fuel generalizing taken state with
  | zero =>
      simp only [turns]
      split
      · trivial
      · rename_i full
        exact (endTurns_records bound taken none state entered).congr fun _ _ =>
          iff_of_false id (not_turnsRefuse_of_full (by simpa using full))
  | succ fuel ih =>
      have keeps := kept site inner state within
      have derived := @sound site inner state
      have first := recording site inner state within
      simp only [turns]
      split
      · rename_i allowed
        cases ran : step site inner state with
        | matched bindings next =>
            rw [ran] at keeps derived first
            have turn := derived within rfl
            simp only
            split
            · rename_i idle
              have ended := endTurns_records bound (taken + 1) none next entered
              refine ((ended.after first).prepend bindings).congr fun place wanted => ?_
              rw [turnsRefuse_of_stop within allowed turn (by rintro _ _ ⟨⟩; exact idle), or_false]
            · rename_i moved
              have later := ih (taken + 1) next (keeps.1.le_size within)
              refine ((later.after first).prepend bindings).congr fun place wanted => ?_
              exact (turnsRefuse_of_advance within allowed turn moved).symm
        | failed mismatch next =>
            rw [ran] at derived first
            simp only [next.resume_eq _ within]
            have ended :=
              endTurns_records bound taken (some mismatch) (next.goto state.index) entered
            refine (ended.after (Cursor.Summarizes.goto first _)).congr fun place wanted => ?_
            rw [turnsRefuse_of_stop within allowed (derived within rfl) (by rintro _ _ ⟨⟩),
              or_false]
        | _ => trivial
      · rename_i full
        exact (endTurns_records bound taken none state entered).congr fun _ _ =>
          iff_of_false id (not_turnsRefuse_of_full (by simpa using full))

theorem complete_records (env : Environment) (shape : ShapeId) (field : Field)
    (bindings : List Binding) {start state : MatchState} {refused : Nat → String → Prop}
    (summary : start.cursor.Summarizes state.cursor refused) :
    (complete env shape field bindings state).Records start refused := by
  unfold complete
  simp only
  split
  · trivial
  · split
    · trivial
    · exact summary

theorem runNode_records (kept : Kept stream step) (sound : Sound env stream step)
    (recording : Recording env stream step) : Recording env stream (runNode env stream step) := by
  intro site tree state within
  cases tree with
  | empty => exact (Cursor.Summarizes.none _).congr fun _ _ => iff_of_false id not_refuses_empty
  | leaf taker => exact taker.run_records env stream site state
  | sequence members =>
      exact (inOrder_records kept sound recording site members state within).orRestore within
  | alternation branches =>
      refine firstOf_records sound recording (fun next => ?_) site branches state within
      exact Cursor.Summarizes.none next.cursor
  | repetition inner bound =>
      have turned :=
        turns_records kept sound recording site inner bound (stream.size + 1) 0 state within within
      exact turned.congr fun place wanted => refuses_repetition_iff.symm
  | reference target field =>
      simp only [runNode]
      cases resolved : env.resolve site target with
      | error fault => trivial
      | ok shape =>
          simp only
          cases built : env.root shape with
          | error fault => trivial
          | ok root =>
              have nested :=
                recording ⟨some shape, 0⟩ root (state.note (.reached site shape)) within
              have same (place : Nat) (wanted : String) :
                  Refuses env stream ⟨some shape, 0⟩ root state.index place wanted ↔
                    Refuses env stream site (.reference target field) state.index place wanted :=
                (refuses_reference_iff resolved built).symm
              simp only
              cases ran : step ⟨some shape, 0⟩ root (state.note (.reached site shape)) with
              | matched bindings next =>
                  rw [ran] at nested
                  exact complete_records env shape field bindings
                    (Cursor.Summarizes.congr nested same)
              | failed mismatch next =>
                  rw [ran] at nested
                  exact (nested.congr same).orRestore within
              | _ => trivial

theorem run_records (env : Environment) (stream : TokenStream) (fuel : Nat) :
    Recording env stream (run env stream fuel) := by
  induction fuel with
  | zero =>
      intro site tree state within
      trivial
  | succ fuel ih => exact runNode_records (run_keeps env stream fuel) (run_sound env stream fuel) ih

end Tree

end RecordGrammar
