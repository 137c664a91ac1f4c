import RecordGrammar.Pattern.Basic

namespace RecordGrammar.Pattern

open RecordGrammar.Text

/-! What a match of a pattern may take.

A pattern stands for a set of texts, whatever order its alternatives are tried in. Every match takes
one of these texts off the front of what lies ahead. -/

/-- The texts that a pattern stands for, if nothing is known of what stands around them. -/
inductive Covers : Pattern → List Char → Prop
  | nothing : Covers .nothing []
  | one {set : CharSet} (held : set.holds c = true) : Covers (.one set) [c]
  | both {first second : Pattern} (front : Covers first taken) (back : Covers second later) :
      Covers (.both first second) (taken ++ later)
  | left {first second : Pattern} (covers : Covers first taken) :
      Covers (.either first second) taken
  | right {first second : Pattern} (covers : Covers second taken) :
      Covers (.either first second) taken
  | repeated {inner : Pattern} (turns : List (List Char)) (each : ∀ turn ∈ turns, Covers inner turn)
      (enough : least ≤ turns.length) (bounded : ∀ bound ∈ most, turns.length ≤ max least bound) :
      Covers (.repeated inner least most eager) turns.flatten
  | textStart : Covers .textStart []
  | textEnd : Covers .textEnd []
  | wordEdge : Covers (.wordEdge wanted) []
  | ahead {inner : Pattern} : Covers (.ahead inner wanted) []

/-- A pattern and then a goal have been matched from a spot: a text that the pattern stands for lies
ahead, and the goal is matched behind it. -/
def Took (pattern : Pattern) (goal : Goal) (spot stop : Spot) : Prop :=
  ∃ taken, taken <+: spot.rest ∧ pattern.Covers taken ∧ goal (spot.advance taken.length) = some stop

/-- So many turns of a pattern and then a goal have been matched from a spot. -/
def TookTurns (inner : Pattern) (goal : Goal) (count : Nat) (spot stop : Spot) : Prop :=
  ∃ taken : List (List Char), taken.length = count ∧ taken.flatten <+: spot.rest ∧
    (∀ turn ∈ taken, inner.Covers turn) ∧ goal (spot.advance taken.flatten.length) = some stop

section Turns

variable {pattern inner : Pattern} {goal : Goal} {spot stop : Spot}

theorem Took.here (covers : pattern.Covers []) (matched : goal spot = some stop) :
    Took pattern goal spot stop :=
  ⟨[], List.nil_prefix, covers, by simpa using matched⟩

theorem prefix_append_of_drop {taken later text : List Char} (front : taken <+: text)
    (back : later <+: text.drop taken.length) : taken ++ later <+: text := by
  obtain ⟨rest, rfl⟩ := front
  rw [List.drop_left] at back
  exact List.prefix_append_right_inj taken |>.mpr back

theorem TookTurns.none (matched : goal spot = some stop) : TookTurns inner goal 0 spot stop :=
  ⟨[], rfl, List.nil_prefix, by simp, by simpa using matched⟩

theorem Took.turn {count : Nat} {next : Goal} (took : Took inner next spot stop)
    (goesOn : ∀ middle, next middle = some stop → TookTurns inner goal count middle stop) :
    TookTurns inner goal (count + 1) spot stop := by
  obtain ⟨first, front, covers, matched⟩ := took
  obtain ⟨later, rfl, back, each, reached⟩ := goesOn _ matched
  refine ⟨first :: later, rfl, prefix_append_of_drop front (by simpa using back), ?_, ?_⟩
  · intro turn held
    rcases List.mem_cons.mp held with rfl | held
    · exact covers
    · exact each turn held
  · simpa using reached

theorem turns_took
    (sound : ∀ goal spot stop, inner.run goal spot = some stop → Took inner goal spot stop)
    {count : Nat} (ran : turns inner.run goal count spot = some stop) :
    TookTurns inner goal count spot stop := by
  induction count generalizing spot with
  | zero => exact .none ran
  | succ count ih => exact (sound _ _ _ ran).turn fun middle matched => ih matched

theorem moreTurns_took
    (sound : ∀ goal spot stop, inner.run goal spot = some stop → Took inner goal spot stop)
    {eager : Bool} {most : Nat} (ran : moreTurns inner.run eager goal most spot = some stop) :
    ∃ count, count ≤ most ∧ TookTurns inner goal count spot stop := by
  induction most generalizing spot with
  | zero => exact ⟨0, Nat.le_refl 0, .none ran⟩
  | succ most ih =>
      -- One more turn leads to `goal` at once if it took nothing, and to fewer turns otherwise.
      have further (taken : inner.run (fun next =>
          if next.remaining < spot.remaining then moreTurns inner.run eager goal most next
          else goal next) spot = some stop) : ∃ count, count ≤ most + 1 ∧
          TookTurns inner goal count spot stop := by
        obtain ⟨first, front, covers, matched⟩ := sound _ _ _ taken
        have once :
            Took inner (fun next => if next = spot.advance first.length then some stop else none)
              spot stop :=
          ⟨first, front, covers, by simp⟩
        simp only at matched
        split at matched
        · obtain ⟨count, few, rest⟩ := ih matched
          refine ⟨count + 1, Nat.succ_le_succ few, once.turn fun middle here => ?_⟩
          split at here
          · rename_i same
            exact same ▸ rest
          · cases here
        · refine ⟨1, by omega, once.turn fun middle here => ?_⟩
          split at here
          · rename_i same
            exact .none (same ▸ matched)
          · cases here
      have stopped (here : goal spot = some stop) :
          ∃ count, count ≤ most + 1 ∧ TookTurns inner goal count spot stop :=
        ⟨0, Nat.zero_le _, .none here⟩
      simp only [moreTurns] at ran
      split at ran
      all_goals
        rw [Option.orElse_eq_or, Option.or_eq_some_iff] at ran
        rcases ran with first | ⟨_, second⟩
      · exact further first
      · exact stopped second
      · exact stopped first
      · exact further second

end Turns

/-- Every match of a pattern takes a text that the pattern stands for. -/
theorem run_took (pattern : Pattern) (goal : Goal) (spot stop : Spot)
    (ran : pattern.run goal spot = some stop) : Took pattern goal spot stop := by
  induction pattern generalizing goal spot stop with
  | nothing => exact .here .nothing ran
  | one set =>
      simp only [run, spot.next?_eq] at ran
      cases ahead : spot.rest with
      | nil => simp [ahead] at ran
      | cons c rest =>
          simp only [ahead, List.head?_cons, Option.map_some] at ran
          split at ran
          · rename_i held
            exact ⟨[c], by simp [ahead], .one held, ran⟩
          · cases ran
  | both first second firstIH secondIH =>
      obtain ⟨taken, front, covers, matched⟩ := firstIH _ _ _ ran
      obtain ⟨later, back, coversToo, reached⟩ := secondIH _ _ _ matched
      exact ⟨taken ++ later, prefix_append_of_drop front (by simpa using back),
        .both covers coversToo, by simpa using reached⟩
  | either first second firstIH secondIH =>
      simp only [run, Option.orElse_eq_or, Option.or_eq_some_iff] at ran
      rcases ran with ran | ⟨_, ran⟩
      · obtain ⟨taken, front, covers, matched⟩ := firstIH _ _ _ ran
        exact ⟨taken, front, .left covers, matched⟩
      · obtain ⟨taken, front, covers, matched⟩ := secondIH _ _ _ ran
        exact ⟨taken, front, .right covers, matched⟩
  | repeated inner least most eager ih =>
      obtain ⟨turns, rfl, front, each, matched⟩ := turns_took ih ran
      obtain ⟨count, few, later, rfl, back, eachLater, reached⟩ := moreTurns_took ih matched
      refine ⟨(turns ++ later).flatten, ?_, .repeated (turns ++ later) ?_ (by simp) ?_, ?_⟩
      · rw [List.flatten_append]
        exact prefix_append_of_drop front (by simpa using back)
      · intro turn held
        exact (List.mem_append.mp held).elim (each turn) (eachLater turn)
      · intro bound held
        cases held
        simp only [List.length_append] at few ⊢
        omega
      · simpa [List.flatten_append] using reached
  | textStart =>
      simp only [run] at ran
      split at ran
      · exact .here .textStart ran
      · cases ran
  | textEnd =>
      simp only [run] at ran
      split at ran
      · exact .here .textEnd ran
      · cases ran
  | wordEdge wanted =>
      simp only [run] at ran
      split at ran
      · exact .here .wordEdge ran
      · cases ran
  | ahead inner wanted =>
      simp only [run] at ran
      split at ran
      · exact .here .ahead ran
      · cases ran

/-- What a match is said to take is a text that the pattern stands for. -/
theorem covers_of_matchWidth? {pattern : Pattern} {spot : Spot} {width : Nat}
    (matched : pattern.matchWidth? spot = some width) :
    width ≤ spot.rest.length ∧ pattern.Covers (spot.rest.take width) := by
  unfold matchWidth? at matched
  obtain ⟨stop, ran, rfl⟩ := Option.map_eq_some_iff.mp matched
  obtain ⟨taken, front, covers, here⟩ := run_took pattern some spot stop ran
  cases here
  have inside := front.length_le
  have width : spot.remaining - (spot.advance taken.length).remaining = taken.length := by
    have counted := spot.counted
    simp only [Spot.advance_remaining]
    omega
  rw [width, ← List.prefix_iff_eq_take.mp front]
  exact ⟨inside, covers⟩

/-- Whether a text that a pattern stands for may be empty. -/
def nullable : Pattern → Bool
  | .one _ => false
  | .both first second => first.nullable && second.nullable
  | .either first second => first.nullable || second.nullable
  | .repeated inner least _ _ => least == 0 || inner.nullable
  | _ => true

/-- Whether a text that a pattern stands for may begin with a character. -/
def mayBegin : Pattern → Char → Bool
  | .one set, c => set.holds c
  | .both first second, c => first.mayBegin c || (first.nullable && second.mayBegin c)
  | .either first second, c => first.mayBegin c || second.mayBegin c
  | .repeated inner _ _ _, c => inner.mayBegin c
  | _, _ => false

theorem Covers.nullable {pattern : Pattern} {taken : List Char} (covers : pattern.Covers taken)
    (empty : taken = []) : pattern.nullable = true := by
  induction covers with
  | one held => cases empty
  | both front back frontIH backIH =>
      obtain ⟨rfl, rfl⟩ := List.append_eq_nil_iff.mp empty
      simp [Pattern.nullable, frontIH rfl, backIH rfl]
  | left covers ih => simp [Pattern.nullable, ih empty]
  | right covers ih => simp [Pattern.nullable, ih empty]
  | repeated turns each enough bounded ih =>
      cases turns with
      | nil => simp [Pattern.nullable, Nat.le_zero.mp enough]
      | cons turn rest =>
          have first : turn = [] := List.flatten_eq_nil_iff.mp empty turn (by simp)
          simp [Pattern.nullable, ih turn (by simp) first]
  | _ => rfl

theorem Covers.mayBegin {pattern : Pattern} {taken rest : List Char} {c : Char}
    (covers : pattern.Covers taken) (begins : taken = c :: rest) : pattern.mayBegin c = true := by
  induction covers generalizing rest with
  | one held =>
      cases begins
      exact held
  | @both taken later first second front back frontIH backIH =>
      cases taken with
      | nil => simp [Pattern.mayBegin, front.nullable rfl, backIH begins]
      | cons head tail =>
          cases begins
          simp [Pattern.mayBegin, frontIH rfl]
  | left covers ih => simp [Pattern.mayBegin, ih begins]
  | right covers ih => simp [Pattern.mayBegin, ih begins]
  | repeated turns each enough bounded ih =>
      clear enough bounded
      induction turns with
      | nil => cases begins
      | cons turn others onward =>
          cases turn with
          | nil =>
              exact onward (fun turn held => each turn (by simp [held]))
                (fun turn held => ih turn (by simp [held]))
                begins
          | cons head tail =>
              cases begins
              exact ih (c :: tail) (by simp) rfl
  | _ => cases begins

@[simp] theorem holds_ofList (chars : List Char) (c : Char) :
    (CharSet.ofList chars).holds c = true ↔ c ∈ chars := by
  induction chars with
  | nil => simp [CharSet.ofList, CharSet.holds]
  | cons first rest ih =>
      cases rest with
      | nil => simp [CharSet.ofList, CharSet.holds]
      | cons second rest =>
          simp only [CharSet.ofList, CharSet.holds, Bool.or_eq_true, beq_iff_eq, ih, List.mem_cons]

section Inversion

variable {first second inner : Pattern} {set : CharSet} {taken : List Char}

theorem covers_one_iff :
    (Pattern.one set).Covers taken ↔ ∃ c, set.holds c = true ∧ taken = [c] := by
  constructor
  · rintro ⟨⟩
    rename_i c held
    exact ⟨c, held, rfl⟩
  · rintro ⟨c, held, rfl⟩
    exact .one held

theorem covers_both_iff : (Pattern.both first second).Covers taken ↔
    ∃ front back, first.Covers front ∧ second.Covers back ∧ taken = front ++ back := by
  constructor
  · rintro ⟨⟩
    rename_i front back coversFront coversBack
    exact ⟨front, back, coversFront, coversBack, rfl⟩
  · rintro ⟨front, back, coversFront, coversBack, rfl⟩
    exact .both coversFront coversBack

theorem covers_either_iff :
    (Pattern.either first second).Covers taken ↔ first.Covers taken ∨ second.Covers taken := by
  constructor
  · intro covers
    cases covers with
    | left covers => exact .inl covers
    | right covers => exact .inr covers
  · rintro (covers | covers)
    · exact .left covers
    · exact .right covers

theorem Covers.holds_of_repeated {least : Nat} {most : Option Nat} {eager : Bool}
    (covers : (Pattern.repeated (.one set) least most eager).Covers taken) :
    ∀ c ∈ taken, set.holds c = true := by
  generalize whole : Pattern.repeated (.one set) least most eager = pattern at covers
  cases covers with
  | repeated turns each enough bounded =>
      cases whole
      intro c held
      obtain ⟨turn, listed, inside⟩ := List.mem_flatten.mp held
      obtain ⟨other, right, rfl⟩ := covers_one_iff.mp (each turn listed)
      cases List.mem_singleton.mp inside
      exact right
  | _ => cases whole

theorem Covers.ne_nil (covers : first.Covers taken) (taking : first.nullable = false) :
    taken ≠ [] := by
  rintro rfl
  simp [covers.nullable rfl] at taking

theorem covers_of_optional (covers : inner.optional.Covers taken) :
    taken = [] ∨ inner.Covers taken := by
  generalize whole : inner.optional = pattern at covers
  cases covers with
  | repeated turns each enough bounded =>
      cases whole
      have few : turns.length ≤ 1 := bounded 1 rfl
      match turns, few with
      | [], _ => exact .inl rfl
      | [turn], _ => exact .inr (by simpa using each turn (by simp))
  | _ => cases whole

theorem Covers.eq_of_ofText {text : List Char} (covers : (ofText text).Covers taken) :
    taken = text := by
  induction text generalizing taken with
  | nil =>
      cases covers
      rfl
  | cons c rest ih =>
      cases rest with
      | nil =>
          obtain ⟨other, held, rfl⟩ := covers_one_iff.mp covers
          simpa [CharSet.holds] using held
      | cons next rest =>
          obtain ⟨front, back, coversFront, coversBack, rfl⟩ := covers_both_iff.mp covers
          obtain ⟨other, held, rfl⟩ := covers_one_iff.mp coversFront
          rw [ih coversBack]
          simpa [CharSet.holds] using held

end Inversion

end RecordGrammar.Pattern
