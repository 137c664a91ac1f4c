import RecordGrammar.Proofs.Pattern.Language

namespace RecordGrammar.Pattern

open RecordGrammar.Text

/-! Which of its texts a pattern takes.

Trying goes on only until something succeeds. If the choices that a pattern tries first lead over so
many characters to a place where the goal is matched, then that is its match. -/

/-- The first choices of a pattern take so many characters. -/
def Leads (pattern : Pattern) (spot : Spot) (width : Nat) : Prop :=
  ∀ goal stop, goal (spot.advance width) = some stop → pattern.run goal spot = some stop

/-- A pattern does not match at a spot, whatever is to follow. -/
def Fails (pattern : Pattern) (spot : Spot) : Prop := ∀ goal, pattern.run goal spot = none

variable {pattern first second inner : Pattern} {set : CharSet} {spot : Spot} {width more : Nat}

theorem matchWidth?_of_leads (leads : pattern.Leads spot width)
    (within : width ≤ spot.rest.length) :
    pattern.matchWidth? spot = some width := by
  have counted := spot.counted
  rw [matchWidth?, leads some _ rfl, Option.map_some, Spot.advance_remaining]
  congr 1
  omega

/-- A pattern fails where it may not begin with what lies ahead. -/
theorem fails_of_mayBegin (taking : pattern.nullable = false)
    (blocked : ∀ c ∈ spot.rest.head?, pattern.mayBegin c = false) : pattern.Fails spot := by
  intro goal
  cases ran : pattern.run goal spot with
  | none => rfl
  | some stop =>
      obtain ⟨taken, ahead, covers, _⟩ := run_took pattern goal spot stop ran
      cases taken with
      | nil => simp [covers.nullable rfl] at taking
      | cons c rest =>
          have here : c ∈ spot.rest.head? := by
            obtain ⟨_, same⟩ := ahead
            simp [← same]
          have begins := covers.mayBegin rfl
          rw [blocked c here] at begins
          cases begins

theorem leads_nothing (spot : Spot) : Pattern.nothing.Leads spot 0 := by
  intro goal stop reached
  rwa [Spot.advance_zero] at reached

theorem leads_one {c : Char} {rest : List Char} (ahead : spot.rest = c :: rest)
    (held : set.holds c = true) :
    (Pattern.one set).Leads spot 1 := by
  intro goal stop reached
  simp only [run, spot.next?_eq, ahead, List.head?_cons, Option.map_some, held, if_true, reached]

theorem Leads.both (front : first.Leads spot width)
    (back : second.Leads (spot.advance width) more) :
    (Pattern.both first second).Leads spot (width + more) := by
  intro goal stop reached
  exact front _ _ (back _ _ (by simpa using reached))

theorem Leads.left (leads : first.Leads spot width) :
    (Pattern.either first second).Leads spot width := by
  intro goal stop reached
  simp only [run, leads goal stop reached, Option.orElse_some]

theorem Leads.right (fails : first.Fails spot) (leads : second.Leads spot width) :
    (Pattern.either first second).Leads spot width := by
  intro goal stop reached
  simp only [run, fails goal, leads goal stop reached, Option.orElse_none]

/-- Every turn that counts takes a character, so a bound on the turns is none if it exceeds what
lies ahead. -/
theorem moreTurns_eq_of_lt {step : Goal → Goal} {eager : Bool} {goal : Goal} {most : Nat}
    (other : Nat) (enough : spot.remaining < most) (enoughToo : spot.remaining < other) :
    moreTurns step eager goal most spot = moreTurns step eager goal other spot := by
  generalize bound : spot.remaining = left at enough enoughToo
  induction left using Nat.strongRecOn generalizing spot most other with
  | ind left ih =>
      obtain ⟨most, rfl⟩ : ∃ fewer, most = fewer + 1 := ⟨most - 1, by omega⟩
      obtain ⟨other, rfl⟩ : ∃ fewer, other = fewer + 1 := ⟨other - 1, by omega⟩
      have onward : (fun next : Spot =>
            if next.remaining < spot.remaining then moreTurns step eager goal most next
              else goal next) =
          fun next => if next.remaining < spot.remaining then moreTurns step eager goal other next
            else goal next := by
        funext next
        split
        · exact ih next.remaining (by omega) _ rfl (by omega) (by omega)
        · rfl
      simp only [moreTurns, onward]

theorem Fails.star (fails : inner.Fails spot) : inner.star.Leads spot 0 := by
  intro goal stop reached
  rw [Spot.advance_zero] at reached
  simp only [Pattern.star, run, turns, moreTurns, fails _, reached, if_true, Option.orElse_none]

theorem Leads.star (turn : inner.Leads spot width) (taking : 0 < width)
    (within : width ≤ spot.rest.length) (rest : inner.star.Leads (spot.advance width) more) :
    inner.star.Leads spot (width + more) := by
  intro goal stop reached
  have counted := spot.counted
  have onward := rest goal stop (by simpa using reached)
  simp only [Pattern.star, run, turns] at onward ⊢
  rw [moreTurns_eq_of_lt spot.remaining (by simp) (by simp; omega)] at onward
  have shorter : (spot.advance width).remaining < spot.remaining := by
    rw [Spot.advance_remaining]
    omega
  simp only [moreTurns, if_true]
  rw [turn _ stop, Option.orElse_some]
  rw [if_pos shorter, onward]

theorem Leads.plus (turn : inner.Leads spot width)
    (rest : inner.star.Leads (spot.advance width) more) :
    inner.plus.Leads spot (width + more) := turn.both rest

theorem optional_run (inner : Pattern) (goal : Goal) (spot : Spot) :
    (optional inner).run goal spot = (Pattern.either inner .nothing).run goal spot := by
  simp only [optional, run, turns, moreTurns, Nat.sub_zero, ite_self, if_true]

theorem Leads.optional (leads : inner.Leads spot width) : inner.optional.Leads spot width := by
  intro goal stop reached
  rw [optional_run]
  exact leads.left goal stop reached

theorem Fails.optional (fails : inner.Fails spot) : inner.optional.Leads spot 0 := by
  intro goal stop reached
  rw [optional_run]
  exact (leads_nothing spot).right fails goal stop reached

/-- The first choices of a pattern take this text wherever it stands with that text behind it. -/
def Over (pattern : Pattern) (taken rest : List Char) : Prop :=
  ∀ spot : Spot, spot.rest = taken ++ rest → pattern.Leads spot taken.length

namespace Over

variable {taken later rest : List Char}

theorem matchWidth? (takes : pattern.Over taken rest) (ahead : spot.rest = taken ++ rest) :
    pattern.matchWidth? spot = some taken.length :=
  matchWidth?_of_leads (takes spot ahead) (by simp [ahead])

theorem one {c : Char} (held : set.holds c = true) (rest : List Char) :
    (Pattern.one set).Over [c] rest :=
  fun _ ahead => leads_one ahead held

theorem both (front : first.Over taken (later ++ rest)) (back : second.Over later rest) :
    (Pattern.both first second).Over (taken ++ later) rest := by
  intro spot ahead
  have behind : (spot.advance taken.length).rest = later ++ rest := by simp [ahead]
  rw [List.length_append]
  exact (front spot (by simp [ahead])).both (back _ behind)

theorem one_both {c : Char} (held : set.holds c = true) (back : second.Over later rest) :
    (Pattern.both (.one set) second).Over (c :: later) rest :=
  both (one held _) back

theorem left (takes : first.Over taken rest) : (Pattern.either first second).Over taken rest :=
  fun spot ahead => (takes spot ahead).left

theorem right (taking : first.nullable = false)
    (blocked : ∀ c ∈ (taken ++ rest).head?, first.mayBegin c = false)
    (takes : second.Over taken rest) : (Pattern.either first second).Over taken rest :=
  fun spot ahead => .right (fails_of_mayBegin taking (ahead ▸ blocked)) (takes spot ahead)

theorem optional (takes : inner.Over taken rest) : inner.optional.Over taken rest :=
  fun spot ahead => (takes spot ahead).optional

theorem noOptional (taking : inner.nullable = false)
    (blocked : ∀ c ∈ rest.head?, inner.mayBegin c = false) :
    inner.optional.Over [] rest :=
  fun _ ahead => (fails_of_mayBegin taking (ahead ▸ blocked)).optional

theorem star_nil (taking : inner.nullable = false)
    (blocked : ∀ c ∈ rest.head?, inner.mayBegin c = false) :
    inner.star.Over [] rest :=
  fun _ ahead => (fails_of_mayBegin taking (ahead ▸ blocked)).star

theorem star_append (some : taken ≠ []) (turn : inner.Over taken (later ++ rest))
    (more : inner.star.Over later rest) :
    inner.star.Over (taken ++ later) rest := by
  intro spot ahead
  have behind : (spot.advance taken.length).rest = later ++ rest := by simp [ahead]
  rw [List.length_append]
  exact (turn spot (by simp [ahead])).star (List.length_pos_iff.mpr some) (by simp [ahead])
    (more _ behind)

/-- A run of characters of a set is taken as a whole. -/
theorem star_one (each : ∀ c ∈ taken, set.holds c = true)
    (ended : ∀ c ∈ rest.head?, set.holds c = false) :
    (star (.one set)).Over taken rest := by
  induction taken with
  | nil => exact star_nil rfl ended
  | cons c taken ih =>
      obtain ⟨here, later⟩ := List.forall_mem_cons.mp each
      exact star_append (List.cons_ne_nil c []) (one here _) (ih later)

theorem plus_one (some : taken ≠ []) (each : ∀ c ∈ taken, set.holds c = true)
    (ended : ∀ c ∈ rest.head?, set.holds c = false) : (plus (.one set)).Over taken rest := by
  cases taken with
  | nil => exact absurd rfl some
  | cons c taken =>
      obtain ⟨here, later⟩ := List.forall_mem_cons.mp each
      intro spot ahead
      have behind : (spot.advance 1).rest = taken ++ rest := by simp [ahead]
      rw [List.length_cons, Nat.add_comm]
      exact (leads_one ahead here).plus (star_one later ended _ behind)

/-- A fixed text is taken as a whole. -/
theorem ofText (text rest : List Char) : (ofText text).Over text rest := by
  induction text with
  | nil => exact fun spot _ => leads_nothing spot
  | cons c text ih =>
      cases text with
      | nil => exact one (by simp [CharSet.holds]) rest
      | cons next text => exact one_both (by simp [CharSet.holds]) ih

end Over

end RecordGrammar.Pattern
