import RecordGrammar.Match.Cursor
import RecordGrammar.Proofs.Appended

namespace RecordGrammar.Cursor

/-! What a cursor records of failures is told by the history of its calls.

The record looks back no further than to itself: it is begun anew, extended or left alone as the
index compares with the furthest place so far. Forward moves and returns come in any order, so the
history is summed up call by call. -/

inductive Call where
  | advance
  | restore (checkpoint : Int)
  | peek (offset : Int)
  | atEnd
  | position
  | fail (checkpoint : Int) (message : String) (wanted : Option String)
deriving DecidableEq, Repr

inductive Answer where
  | nothing
  | token (token : Option Token)
  | flag (flag : Bool)
  | place (position : Option Position)
  | mismatch (mismatch : Mismatch)
deriving DecidableEq, Repr

/-- What a call gives, and the cursor that it leaves behind. -/
def Call.perform (stream : TokenStream) (cursor : Cursor) :
    Call → Except CursorError (Answer × Cursor)
  | .advance => .ok (.token ((cursor.advance stream).current? stream), cursor.advance stream)
  | .restore checkpoint => (cursor.restore stream checkpoint).map fun after => (.nothing, after)
  | .peek offset => (cursor.peek stream offset).map fun seen => (.token seen, cursor)
  | .atEnd => .ok (.flag (cursor.atEnd stream), cursor)
  | .position => .ok (.place (cursor.position? stream), cursor)
  | .fail checkpoint message wanted =>
      .ok (.mismatch (cursor.fail stream checkpoint message wanted).1,
        (cursor.fail stream checkpoint message wanted).2)

/-- The cursor behind a call. A call that is refused leaves it as it was. -/
def Call.after (stream : TokenStream) (cursor : Cursor) (call : Call) : Cursor :=
  match call.perform stream cursor with
  | .ok (_, after) => after
  | .error _ => cursor

def performAll (stream : TokenStream) (calls : List Call) (cursor : Cursor) : Cursor :=
  calls.foldl (Call.after stream) cursor

/-- An expectation that a call notes, with the index where the cursor stands. -/
def Call.notes (cursor : Cursor) : Call → List (Nat × String)
  | .fail _ _ (some wanted) => [(cursor.index, wanted)]
  | _ => []

/-- All that was expected in vain in the course of some calls, from the first call to the last. -/
def history (stream : TokenStream) : List Call → Cursor → List (Nat × String)
  | [], _ => []
  | call :: later, cursor => call.notes cursor ++ history stream later (call.after stream cursor)

/-- The largest index of a history. -/
def furthestOf (history : List (Nat × String)) : Nat :=
  (history.map Prod.fst).foldl max 0

/-- What was expected at the largest index of a history, each thing once, in the order of first
mention. -/
def expectedOf (history : List (Nat × String)) : List String :=
  ((history.filter fun entry => entry.1 = furthestOf history).map Prod.snd).eraseDups

/-- The record of a cursor sums up a history, and the cursor stands in its stream. -/
structure SumsUp (stream : TokenStream) (cursor : Cursor)
    (history : List (Nat × String)) : Prop where
  index : cursor.index ≤ stream.size
  within : cursor.furthest ≤ stream.size
  furthest : cursor.furthest = furthestOf history
  expected : cursor.expected = expectedOf history

section History

variable {stream : TokenStream} {cursor : Cursor} {noted : List (Nat × String)} {index : Nat}
  {wanted : String}

theorem Call.after_of_error {call : Call} {error : CursorError}
    (refused : call.perform stream cursor = .error error) :
    call.after stream cursor = cursor := by
  rw [Call.after, refused]

theorem Call.after_peek {offset : Int} : (Call.peek offset).after stream cursor = cursor := by
  simp only [Call.after, Call.perform]
  cases cursor.peek stream offset <;> rfl

theorem Call.perform_restore {checkpoint : Int}
    (inside : 0 ≤ checkpoint ∧ checkpoint ≤ stream.size) :
    (Call.restore checkpoint).perform stream cursor =
      .ok (.nothing, cursor.goto checkpoint.toNat) := by
  simp only [Call.perform, Cursor.restore, if_pos inside]
  rfl

theorem Call.perform_restore_outside {checkpoint : Int}
    (outside : ¬ (0 ≤ checkpoint ∧ checkpoint ≤ stream.size)) :
    (Call.restore checkpoint).perform stream cursor = .error (.badCheckpoint checkpoint) := by
  simp only [Call.perform, Cursor.restore, if_neg outside]
  rfl

theorem furthestOf_concat :
    furthestOf (noted ++ [(index, wanted)]) = max (furthestOf noted) index := by
  simp [furthestOf]

theorem le_furthestOf {entry : Nat × String} (member : entry ∈ noted) :
    entry.1 ≤ furthestOf noted := by
  have few := List.le_max?_getD_of_mem (k := 0) (List.mem_map_of_mem (f := Prod.fst) member)
  rw [furthestOf, List.foldl_max]
  omega

/-- A place further than all before begins a new list. -/
theorem expectedOf_further (further : furthestOf noted < index) :
    expectedOf (noted ++ [(index, wanted)]) = [wanted] := by
  have none : noted.filter (fun entry => entry.1 = index) = [] := by
    rw [List.filter_eq_nil_iff]
    intro entry member
    have few := le_furthestOf member
    rw [decide_eq_true_eq]
    omega
  have last : [(index, wanted)].filter (fun entry => entry.1 = index) = [(index, wanted)] := by simp
  rw [expectedOf, furthestOf_concat, Nat.max_eq_right (Nat.le_of_lt further), List.filter_append,
    none, last, List.nil_append]
  exact eraseDups_append_one [] wanted

theorem expectedOf_same (same : index = furthestOf noted) :
    expectedOf (noted ++ [(index, wanted)]) =
      if wanted ∈ expectedOf noted then expectedOf noted else expectedOf noted ++ [wanted] := by
  have listed : expectedOf (noted ++ [(index, wanted)]) =
      (((noted.filter fun entry => entry.1 = furthestOf noted).map Prod.snd) ++
        [wanted]).eraseDups := by
    rw [expectedOf, furthestOf_concat, same, Nat.max_self, List.filter_append, ← same,
      List.map_append]
    simp
  rw [listed, eraseDups_append_one]
  simp only [expectedOf, List.mem_eraseDups, List.any_beq', List.contains_iff_mem]

theorem expectedOf_nearer (nearer : index < furthestOf noted) :
    expectedOf (noted ++ [(index, wanted)]) = expectedOf noted := by
  have last : [(index, wanted)].filter (fun entry => entry.1 = furthestOf noted) = [] := by
    simp [Nat.ne_of_lt nearer]
  rw [expectedOf, furthestOf_concat, Nat.max_eq_left (Nat.le_of_lt nearer), List.filter_append,
    last, List.append_nil, ← expectedOf]

namespace SumsUp

theorem start (stream : TokenStream) : SumsUp stream {} [] :=
  ⟨Nat.zero_le _, Nat.zero_le _, rfl, rfl⟩

theorem expect (sums : SumsUp stream cursor noted) (wanted : String) :
    SumsUp stream (cursor.expect wanted) (noted ++ [(cursor.index, wanted)]) := by
  obtain ⟨index, within, furthest, expected⟩ := sums
  unfold Cursor.expect
  split
  · rename_i further
    rw [furthest] at further
    refine ⟨index, index, ?_, (expectedOf_further further).symm⟩
    rw [furthestOf_concat, Nat.max_eq_right (Nat.le_of_lt further)]
  rename_i near
  have unmoved : cursor.furthest = furthestOf (noted ++ [(cursor.index, wanted)]) := by
    rw [furthestOf_concat, furthest, Nat.max_eq_left (by omega)]
  split
  · rename_i fresh
    refine ⟨index, within, unmoved, ?_⟩
    rw [expectedOf_same (fresh.1.trans furthest), if_neg (expected ▸ fresh.2), expected]
  · rename_i known
    refine ⟨index, within, unmoved, ?_⟩
    by_cases same : cursor.index = cursor.furthest
    · have listed : wanted ∈ cursor.expected :=
        Decidable.not_not.mp fun fresh => known ⟨same, fresh⟩
      rw [expectedOf_same (same.trans furthest), if_pos (expected ▸ listed), expected]
    · rw [expectedOf_nearer (by omega), expected]

theorem goto (sums : SumsUp stream cursor noted) (inside : index ≤ stream.size) :
    SumsUp stream (cursor.goto index) noted :=
  ⟨inside, sums.within, sums.furthest, sums.expected⟩

theorem advance (sums : SumsUp stream cursor noted) :
    SumsUp stream (cursor.advance stream) noted := by
  unfold Cursor.advance
  split
  · rename_i more
    exact sums.goto more
  · exact sums

/-- One call keeps the record up with the history. -/
theorem after (sums : SumsUp stream cursor noted) (call : Call) :
    SumsUp stream (call.after stream cursor) (noted ++ call.notes cursor) := by
  have still : SumsUp stream cursor (noted ++ []) := by rwa [List.append_nil]
  cases call with
  | fail checkpoint message wanted =>
      cases wanted with
      | none => exact still
      | some wanted => exact sums.expect wanted
  | advance => exact still.advance
  | restore checkpoint =>
      by_cases inside : 0 ≤ checkpoint ∧ checkpoint ≤ stream.size
      · rw [Call.after, Call.perform_restore inside]
        exact still.goto (by omega)
      · rw [Call.after_of_error (Call.perform_restore_outside inside)]
        exact still
  | peek offset =>
      rw [Call.after_peek]
      exact still
  | atEnd | position => exact still

theorem performAll (sums : SumsUp stream cursor noted) (calls : List Call) :
    SumsUp stream (Cursor.performAll stream calls cursor)
      (noted ++ history stream calls cursor) := by
  induction calls generalizing cursor noted with
  | nil => rwa [history, List.append_nil]
  | cons call later ih =>
      rw [history, ← List.append_assoc]
      exact ih (sums.after call)

/-- There is a token at the furthest place, unless that lies behind the stream. -/
theorem deepest?_eq_none_iff (sums : SumsUp stream cursor noted) :
    cursor.deepest? stream = none ↔ cursor.furthest = stream.size := by
  have within := sums.within
  have beyond : cursor.deepest? stream = none ↔ stream.size ≤ cursor.furthest :=
    Array.getElem?_eq_none_iff
  rw [beyond]
  omega

end SumsUp

/-- Whatever calls are made of a new cursor, in whatever order, its record sums up their history:
the furthest place is the largest index where something was expected in vain, and the expectations
are those of that index, each once, in the order of first mention. The cursor stands in its stream
or right behind it, and a call that is refused, as a return to a place outside is, changes
nothing. -/
theorem performAll_sums_up (stream : TokenStream) (calls : List Call) :
    (performAll stream calls {}).index ≤ stream.size ∧
    (performAll stream calls {}).furthest = furthestOf (history stream calls {}) ∧
    (performAll stream calls {}).expected = expectedOf (history stream calls {}) ∧
    (performAll stream calls {}).deepest? stream =
      stream.tokens[furthestOf (history stream calls {})]? ∧
    ((performAll stream calls {}).deepest? stream = none ↔
      (performAll stream calls {}).furthest = stream.size) ∧
    (∀ checkpoint : Int, ¬ (0 ≤ checkpoint ∧ checkpoint ≤ stream.size) →
      (Call.restore checkpoint).perform stream (performAll stream calls {}) =
        .error (.badCheckpoint checkpoint)) ∧
    ∀ call error, Call.perform stream (performAll stream calls {}) call = .error error →
      performAll stream (calls ++ [call]) {} = performAll stream calls {} := by
  have sums := (SumsUp.start stream).performAll calls
  rw [List.nil_append] at sums
  refine ⟨sums.index, sums.furthest, sums.expected, ?_, sums.deepest?_eq_none_iff,
    fun _ => Call.perform_restore_outside, ?_⟩
  · rw [Cursor.deepest?, sums.furthest]
    rfl
  · intro call error refused
    rw [performAll, List.foldl_append]
    exact Call.after_of_error refused

end History

end RecordGrammar.Cursor
