import RecordGrammar.Proofs.Scanner.Calls
import RecordGrammar.Proofs.Scanner.Tables

namespace RecordGrammar

open RecordGrammar.Text

/-! A table of rules cuts a text into the pieces that its rules win.

Of the way in which rules match, nothing is used but that no match goes beyond the end of the text.
-/

namespace ScanRule

/-- The rule at a place of a table matches at a spot, and its match takes something. -/
structure Takes (widths : ScanRule → Spot → Option Nat) (rules : List ScanRule) (spot : Spot)
    (place : Nat) (rule : ScanRule) (width : Nat) : Prop where
  listed : rules[place]? = some rule
  matched : widths rule spot = some width
  wide : 0 < width

/-- Of all rules that take something at a spot, this one has the highest rank, of those the longest
match, and of those it was defined first. -/
structure Wins (widths : ScanRule → Spot → Option Nat) (rules : List ScanRule) (spot : Spot)
    (place : Nat) (rule : ScanRule) (width : Nat) : Prop where
  takes : Takes widths rules spot place rule width
  highest : ∀ otherPlace other otherWidth, Takes widths rules spot otherPlace other otherWidth →
    other.rank ≤ rule.rank
  longest : ∀ otherPlace other otherWidth, Takes widths rules spot otherPlace other otherWidth →
    other.rank = rule.rank → otherWidth ≤ width
  earliest : ∀ otherPlace other otherWidth, Takes widths rules spot otherPlace other otherWidth →
    other.rank = rule.rank → otherWidth = width → place ≤ otherPlace

section Winner

variable {widths : ScanRule → Spot → Option Nat} {rules before : List ScanRule} {spot : Spot}
  {rule other first : ScanRule} {width otherWidth place otherPlace : Nat}

/-- No two rules win at one spot. -/
theorem Wins.unique (wins : Wins widths rules spot place rule width)
    (also : Wins widths rules spot otherPlace other otherWidth) :
    otherPlace = place ∧ other = rule ∧ otherWidth = width := by
  have rank : other.rank = rule.rank :=
    Int.le_antisymm (wins.highest _ _ _ also.takes) (also.highest _ _ _ wins.takes)
  have wide : otherWidth = width :=
    Nat.le_antisymm (wins.longest _ _ _ also.takes rank) (also.longest _ _ _ wins.takes rank.symm)
  have placed : otherPlace = place :=
    Nat.le_antisymm (also.earliest _ _ _ wins.takes rank.symm wide.symm)
      (wins.earliest _ _ _ also.takes rank wide)
  subst placed
  exact ⟨rfl, Option.some.inj (also.takes.listed.symm.trans wins.takes.listed), wide⟩

theorem takes_concat_iff : Takes widths (before ++ [first]) spot place rule width ↔
    Takes widths before spot place rule width ∨
      (place = before.length ∧ rule = first ∧ widths first spot = some width ∧ 0 < width) := by
  constructor
  · intro takes
    obtain ⟨listed, matched, wide⟩ := takes
    rcases Nat.lt_or_ge place before.length with inside | behind
    · rw [List.getElem?_append_left inside] at listed
      exact .inl ⟨listed, matched, wide⟩
    · rw [List.getElem?_append_right behind, List.getElem?_singleton] at listed
      split at listed
      · cases listed
        exact .inr ⟨by omega, rfl, matched, wide⟩
      · cases listed
  · intro either
    rcases either with takes | ⟨here, same, matched, wide⟩
    · have inside := (List.getElem?_eq_some_iff.mp takes.listed).1
      exact ⟨by rw [List.getElem?_append_left inside, takes.listed], takes.matched, takes.wide⟩
    · subst here same
      exact ⟨by simp, matched, wide⟩

/-- What is known of a table after a look at each of its rules: the winner, if a rule takes
anything. -/
def Settled (widths : ScanRule → Spot → Option Nat) (rules : List ScanRule) (spot : Spot) :
    Option (ScanRule × Nat) → Prop
  | none => ∀ place rule width, ¬ Takes widths rules spot place rule width
  | some (rule, width) => ∃ place, Wins widths rules spot place rule width

theorem Settled.idle {found : Option (ScanRule × Nat)} (settled : Settled widths before spot found)
    (idle : ∀ width, widths first spot = some width → ¬ 0 < width) :
    Settled widths (before ++ [first]) spot found := by
  have same (place : Nat) (rule : ScanRule) (width : Nat) :
      Takes widths (before ++ [first]) spot place rule width ↔
        Takes widths before spot place rule width := by
    rw [takes_concat_iff]
    constructor
    · intro either
      rcases either with takes | ⟨_, _, matched, wide⟩
      · exact takes
      · exact absurd wide (idle _ matched)
    · exact .inl
  cases found with
  | none => exact fun place rule width takes => settled _ _ _ ((same _ _ _).mp takes)
  | some entry =>
      obtain ⟨place, wins⟩ := settled
      refine ⟨place, (same _ _ _).mpr wins.takes, ?_, ?_, ?_⟩
      · exact fun _ _ _ takes => wins.highest _ _ _ ((same _ _ _).mp takes)
      · exact fun _ _ _ takes => wins.longest _ _ _ ((same _ _ _).mp takes)
      · exact fun _ _ _ takes => wins.earliest _ _ _ ((same _ _ _).mp takes)

theorem Settled.leads (settled : Settled widths before spot none)
    (matched : widths first spot = some width) (wide : 0 < width) :
    Settled widths (before ++ [first]) spot (some (first, width)) := by
  have only {otherPlace : Nat} {other : ScanRule} {otherWidth : Nat}
      (takes : Takes widths (before ++ [first]) spot otherPlace other otherWidth) :
      otherPlace = before.length ∧ other = first ∧ otherWidth = width := by
    rcases takes_concat_iff.mp takes with earlier | ⟨here, same, also, _⟩
    · exact absurd earlier (settled _ _ _)
    · exact ⟨here, same, Option.some.inj (also.symm.trans matched)⟩
  refine ⟨before.length, takes_concat_iff.mpr (.inr ⟨rfl, rfl, matched, wide⟩), ?_, ?_, ?_⟩
  · exact fun _ _ _ takes => (only takes).2.1 ▸ Int.le_refl _
  · exact fun _ _ _ takes _ => Nat.le_of_eq (only takes).2.2
  · exact fun _ _ _ takes _ _ => Nat.le_of_eq (only takes).1.symm

theorem beats_iff : rule.beats width other otherWidth = true ↔
    other.rank < rule.rank ∨ (rule.rank = other.rank ∧ otherWidth < width) := by
  simp [beats]

theorem Settled.overtakes (settled : Settled widths before spot (some (other, otherWidth)))
    (matched : widths first spot = some width) (wide : 0 < width)
    (beats : first.beats width other otherWidth = true) :
    Settled widths (before ++ [first]) spot (some (first, width)) := by
  obtain ⟨place, wins⟩ := settled
  have better := beats_iff.mp beats
  -- Whoever was there before comes behind the winner so far, and so behind the new one.
  have behind {thirdPlace : Nat} {third : ScanRule} {thirdWidth : Nat}
      (takes : Takes widths (before ++ [first]) spot thirdPlace third thirdWidth) :
      (third.rank ≤ first.rank ∧ (third.rank = first.rank → thirdWidth < width)) ∨
        (thirdPlace = before.length ∧ third = first ∧ thirdWidth = width) := by
    rcases takes_concat_iff.mp takes with earlier | ⟨here, same, also, _⟩
    · have rank := wins.highest _ _ _ earlier
      have long := wins.longest _ _ _ earlier
      refine .inl ⟨by omega, fun level => ?_⟩
      have few := long (by omega)
      omega
    · exact .inr ⟨here, same, Option.some.inj (also.symm.trans matched)⟩
  refine ⟨before.length, takes_concat_iff.mpr (.inr ⟨rfl, rfl, matched, wide⟩), ?_, ?_, ?_⟩
  · intro thirdPlace third thirdWidth takes
    rcases behind takes with ⟨rank, _⟩ | ⟨_, same, _⟩
    · exact rank
    · exact same ▸ Int.le_refl _
  · intro thirdPlace third thirdWidth takes level
    rcases behind takes with ⟨_, shorter⟩ | ⟨_, _, same⟩
    · exact Nat.le_of_lt (shorter level)
    · exact Nat.le_of_eq same
  · intro thirdPlace third thirdWidth takes level same
    rcases behind takes with ⟨_, shorter⟩ | ⟨here, _, _⟩
    · exact absurd same (Nat.ne_of_lt (shorter level))
    · exact Nat.le_of_eq here.symm

theorem Settled.stays (settled : Settled widths before spot (some (other, otherWidth)))
    (matched : widths first spot = some width)
    (beaten : ¬ first.beats width other otherWidth = true) :
    Settled widths (before ++ [first]) spot (some (other, otherWidth)) := by
  obtain ⟨place, wins⟩ := settled
  rw [beats_iff] at beaten
  have inside := (List.getElem?_eq_some_iff.mp wins.takes.listed).1
  refine ⟨place, takes_concat_iff.mpr (.inl wins.takes), ?_, ?_, ?_⟩
  · intro thirdPlace third thirdWidth takes
    rcases takes_concat_iff.mp takes with earlier | ⟨_, same, _, _⟩
    · exact wins.highest _ _ _ earlier
    · subst same
      omega
  · intro thirdPlace third thirdWidth takes level
    rcases takes_concat_iff.mp takes with earlier | ⟨_, same, also, _⟩
    · exact wins.longest _ _ _ earlier level
    · subst same
      cases also.symm.trans matched
      omega
  · intro thirdPlace third thirdWidth takes level same
    rcases takes_concat_iff.mp takes with earlier | ⟨here, _, _, _⟩
    · exact wins.earliest _ _ _ earlier level same
    · omega

/-- Rule by rule, the winner so far becomes the winner of the table. -/
theorem best?_settles {found : Option (ScanRule × Nat)}
    (settled : Settled widths before spot found) :
    Settled widths (before ++ rules) spot (best? false spot rules found widths) := by
  induction rules generalizing before found with
  | nil => rwa [List.append_nil]
  | cons first rest ih =>
      rw [List.append_cons]
      unfold best?
      split
      · rename_i missed
        exact ih (settled.idle (by simp [missed]))
      · rename_i width matched
        split
        · rename_i empty
          refine ih (settled.idle fun other also => ?_)
          cases also.symm.trans matched
          simp at empty
          omega
        · rename_i counts
          have wide : 0 < width := Nat.pos_of_ne_zero fun none => counts (by simp [none])
          split
          · exact ih (settled.leads matched wide)
          · split
            · rename_i beats
              exact ih (settled.overtakes matched wide beats)
            · rename_i beaten
              exact ih (settled.stays matched beaten)

theorem best?_settled (widths : ScanRule → Spot → Option Nat) (rules : List ScanRule)
    (spot : Spot) :
    Settled widths rules spot (best? false spot rules none widths) := by
  have nothing : Settled widths [] spot none := fun place rule width takes => by
    cases takes.listed
  exact best?_settles nothing

theorem best?_of_wins (wins : Wins widths rules spot place rule width) :
    best? false spot rules none widths = some (rule, width) := by
  have settled := best?_settled widths rules spot
  cases found : best? false spot rules none widths with
  | none =>
      rw [found] at settled
      exact absurd wins.takes (settled _ _ _)
  | some entry =>
      rw [found] at settled
      obtain ⟨otherPlace, also⟩ := settled
      obtain ⟨_, same, wide⟩ := wins.unique also
      exact congrArg some (Prod.ext same wide)

end Winner

/-- A stretch of a text, with the rule that takes it and the place of that rule in its table. -/
structure Piece where
  start : Nat
  place : Nat
  rule : ScanRule
  text : List Char

/-- The token of a piece, unless its rule has no kind. The token stands for the meaning of the
piece, or for the piece itself if it has none. -/
def Piece.token? (whole : List Char) (piece : Piece) : Option Token :=
  piece.rule.kind.map fun kind =>
    { kind := some kind
      text := (piece.rule.meaning piece.text).getD (.ofChars piece.text)
      position := .behind (whole.take piece.start) }

/-- From one offset to another a text is cut into pieces, none of them empty. Each is what the one
rule that wins at its offset takes there. -/
def Cut (widths : ScanRule → Spot → Option Nat) (rules : List ScanRule) (text : List Char) :
    Nat → List Piece → Nat → Prop
  | start, [], stop => start = stop
  | start, piece :: later, stop =>
      piece.start = start ∧ piece.text ≠ [] ∧ piece.text <+: text.drop start ∧
        (∀ place rule width, Wins widths rules (.after text start) place rule width ↔
          place = piece.place ∧ rule = piece.rule ∧ width = piece.text.length) ∧
        Cut widths rules text (start + piece.text.length) later stop

/-- What a call for the next token does from an offset of a text: it cuts off pieces that yield
nothing, and then comes to the end of the text, to an offset where no rule takes anything, or to a
piece that yields a token. -/
inductive Gives (widths : ScanRule → Spot → Option Nat) (rules : List ScanRule) (text : List Char)
    (start : Nat) :
    Except ScanError Token × Reader → Prop
  | finish {pieces : List Piece} {after : Reader}
      (cut : Cut widths rules text start pieces text.length)
      (yields : pieces.filterMap (Piece.token? text) = []) (stands : after.At text text.length) :
      Gives widths rules text start (.ok (.atEnd text), after)
  | stuck {pieces : List Piece} {stop : Nat} {after : Reader}
      (cut : Cut widths rules text start pieces stop)
      (yields : pieces.filterMap (Piece.token? text) = []) (more : stop < text.length)
      (idle : ∀ place rule width, ¬ Takes widths rules (.after text stop) place rule width)
      (stands : after.At text stop) :
      Gives widths rules text start
        (.error (.blocked { position := .behind (text.take stop), condition := "INITIAL" }), after)
  | token {pieces : List Piece} {token : Token} {stop : Nat} {after : Reader}
      (cut : Cut widths rules text start pieces stop)
      (yields : pieces.filterMap (Piece.token? text) = [token])
      (further : start < stop) (unmarked : Unmarking rules → token.isEnd = false)
      (placed : ∃ offset, token.position = .behind (text.take offset))
      (stands : after.At text stop) :
      Gives widths rules text start (.ok token, after)

/-- The end of a run: the end of the text, or the first offset where no rule takes anything. -/
inductive Ends (widths : ScanRule → Spot → Option Nat) (rules : List ScanRule) (text : List Char) :
    Nat → Except ScanError Token → Prop
  | finish : Ends widths rules text text.length (.ok (.atEnd text))
  | stuck {stop : Nat} (more : stop < text.length)
      (idle : ∀ place rule width, ¬ Takes widths rules (.after text stop) place rule width) :
      Ends widths rules text stop
        (.error (.blocked { position := .behind (text.take stop), condition := "INITIAL" }))

section Run

variable {widths : ScanRule → Spot → Option Nat} {rules : List ScanRule} {text : List Char}
  {start middle stop : Nat} {pieces later : List Piece} {reader : Reader}

theorem Cut.append (cut : Cut widths rules text start pieces middle)
    (more : Cut widths rules text middle later stop) :
    Cut widths rules text start (pieces ++ later) stop := by
  induction pieces generalizing start with
  | nil =>
      cases cut
      exact more
  | cons piece pieces ih =>
      obtain ⟨here, wide, ahead, wins, rest⟩ := cut
      exact ⟨here, wide, ahead, wins, ih rest⟩

/-- No match goes beyond the end of the text. -/
def Within (widths : ScanRule → Spot → Option Nat) (rules : List ScanRule) : Prop :=
  ∀ rule ∈ rules, ∀ spot width, widths rule spot = some width → width ≤ spot.rest.length

theorem width?_within (rules : List ScanRule) : Within width? rules :=
  fun _ _ _ _ matched => (Pattern.covers_of_matchWidth? matched).1

/-- The piece that a winner cuts off. -/
theorem cut_of_wins {place width : Nat} {rule : ScanRule} (within : Within widths rules)
    (wins : Wins widths rules (.after text start) place rule width) :
    start + width ≤ text.length ∧
      Cut widths rules text start [⟨start, place, rule, (text.drop start).take width⟩]
        (start + width) := by
  obtain ⟨listed, matched, wide⟩ := wins.takes
  have inside : width ≤ (text.drop start).length :=
    within rule (List.mem_of_getElem? listed) _ _ matched
  have length : ((text.drop start).take width).length = width := by
    rw [List.length_take, Nat.min_eq_left inside]
  rw [List.length_drop] at inside
  have some : (text.drop start).take width ≠ [] := by
    intro none
    rw [none, List.length_nil] at length
    omega
  refine ⟨by omega, rfl, some, List.take_prefix _ _, ?_, ?_⟩
  · intro otherPlace other otherWidth
    rw [length]
    constructor
    · exact wins.unique
    · intro same
      obtain ⟨here, same, wide⟩ := same
      subst here same wide
      exact wins
  · change start + ((text.drop start).take width).length = start + width
    rw [length]

/-- A piece without a kind is cut off in front of what a call does behind it. -/
theorem Gives.skip {result : Except ScanError Token × Reader}
    (cut : Cut widths rules text start pieces middle)
    (yields : pieces.filterMap (Piece.token? text) = []) (further : start ≤ middle)
    (gives : Gives widths rules text middle result) : Gives widths rules text start result := by
  cases gives with
  | finish rest none stands =>
      exact .finish (cut.append rest) (by rw [List.filterMap_append, yields, none]; rfl) stands
  | stuck rest none more idle stands =>
      exact .stuck (cut.append rest)
        (by rw [List.filterMap_append, yields, none]; rfl) more idle stands
  | token rest one beyond unmarked placed stands =>
      exact .token (cut.append rest) (by rw [List.filterMap_append, yields, one]; rfl)
        (by omega) unmarked placed stands

theorem nextWithin_gives {fuel : Nat} (within : Within widths rules) (stands : reader.At text start)
    (enough : text.length - start < fuel) :
    Gives widths rules text start (nextWithin rules fuel reader widths) := by
  induction fuel generalizing reader start with
  | zero => cases enough
  | succ fuel ih =>
      have ahead : decide (reader.right < 0) = false :=
        decide_eq_false (Int.not_lt.mpr stands.front)
      have near : decide (reader.right < -(lengthLimit : Int)) = false := by
        refine decide_eq_false fun far => ?_
        have front := stands.front
        omega
      unfold nextWithin
      rw [near, Bool.and_false, stands.hasMore, bestAt?, ahead, stands.spot]
      by_cases more : start < text.length
      · rw [decide_eq_true more]
        simp only [Bool.not_true, Bool.false_eq_true, if_false]
        have settled := best?_settled widths rules (.after text start)
        cases found : best? false (.after text start) rules none widths with
        | none =>
            rw [found] at settled
            rw [stands.blocked]
            have cut : Cut widths rules text start [] start := rfl
            exact .stuck cut rfl more settled stands
        | some entry =>
            obtain ⟨rule, width⟩ := entry
            rw [found] at settled
            obtain ⟨place, wins⟩ := settled
            obtain ⟨inside, cut⟩ := cut_of_wins within wins
            obtain ⟨standsBehind, _⟩ := stands.skip inside
            have wide := wins.takes.wide
            cases kinded : rule.kind with
            | none =>
                have yields :
                    [Piece.mk start place rule ((text.drop start).take width)].filterMap
                      (Piece.token? text) = [] := by
                  simp [Piece.token?, kinded]
                simp only [kinded]
                exact (ih standsBehind (by omega)).skip cut yields (by omega)
            | some kind =>
                have front :
                    (Spot.after text start).rest.take width = (text.drop start).take width := rfl
                simp only [kinded, front, stands.emit]
                refine .token cut ?_ (by omega) ?_ ⟨start, rfl⟩ standsBehind
                · simp [Piece.token?, kinded]
                · intro unmarking
                  have plain := unmarking rule (List.mem_of_getElem? wins.takes.listed)
                  rw [kinded] at plain
                  simpa [Token.isEnd] using plain
      · have ended : start = text.length := Nat.le_antisymm stands.inside (Nat.not_lt.mp more)
        subst ended
        simp only [decide_eq_false more, Bool.not_false, if_true, stands.finish]
        have cut : Cut widths rules text text.length [] text.length := rfl
        exact .finish cut rfl stands.finished

theorem next_gives (within : Within widths rules) (stands : reader.At text start) :
    Gives widths rules text start (next rules reader widths) := by
  refine nextWithin_gives within stands ?_
  rw [stands.remaining]
  omega

theorem exists_calls (within : Within widths rules) (unmarking : Unmarking rules)
    (stands : reader.At text start) :
    ∃ pieces stop calls last, Calls (fun reader => next rules reader widths) reader calls last ∧
      Cut widths rules text start pieces stop ∧
      calls.map Call.token = pieces.filterMap (Piece.token? text) ∧
      Ends widths rules text stop last.1 := by
  generalize left : text.length - start = fuel
  induction fuel using Nat.strongRecOn generalizing reader start with
  | ind fuel ih =>
      have gives := next_gives within stands
      generalize given : next rules reader widths = result at gives
      cases gives with
      | finish cut yields standsToo =>
          exact ⟨_, _, [], _, .finish given rfl, cut, by rw [yields]; rfl, .finish⟩
      | stuck cut yields more idle standsToo =>
          exact ⟨_, _, [], _, .stuck given, cut, by rw [yields]; rfl, .stuck more idle⟩
      | @token pieces token middle after cut yields further unmarked placed standsToo =>
          have inside := standsToo.inside
          obtain ⟨more, stop, calls, last, called, rest, tokens, ends⟩ :=
            ih _ (by omega) standsToo rfl
          refine ⟨pieces ++ more, stop, ⟨token, after⟩ :: calls, last,
            .token given (unmarked unmarking) called, cut.append rest, ?_, ends⟩
          rw [List.map_cons, tokens, List.filterMap_append, yields]
          rfl

/-- Calls for the next token by a table cut a text into pieces, each of them what the rule of the
highest rank takes, of those the one with the longest match, and of those the one that was defined
first. The pieces of rules with a kind are the tokens. The calls end with the end of the text, or
where no rule takes anything. However the rules match, that much holds as long as no match goes
beyond the end of the text. -/
theorem calls_by_rank (widths : ScanRule → Spot → Option Nat) (rules : List ScanRule)
    (text : List Char) (within : Within widths rules) (unmarking : Unmarking rules) :
    ∃ pieces stop calls last, Calls (fun reader => next rules reader widths)
      (.start text) calls last ∧ Cut widths rules text 0 pieces stop ∧
      calls.map Call.token = pieces.filterMap (Piece.token? text) ∧
      Ends widths rules text stop last.1 :=
  exists_calls within unmarking (Reader.start_at text)

/-- Digits are words too, but were defined earlier. Crosses have a higher rank, and may be none at
all. -/
def crosses : List ScanRule :=
  [.ignore (.plus (.one .blank)) 0,
   .token "Digits" (.plus (.one .digit)) (some .number) 0,
   .token "Word" (.plus (.one .word)) (some .identifier) 0,
   .token "Crosses" (.star (.one (.character 'x'))) (some .operator) 1]

theorem crosses_by_rank :
    Within width? crosses ∧ Unmarking crosses ∧
      (∃ pieces stop calls last,
        Calls (fun reader => next crosses reader) (.start "12 xxy2!".toList) calls last ∧
        Cut width? crosses "12 xxy2!".toList 0 pieces stop ∧
        calls.map Call.token = pieces.filterMap (Piece.token? "12 xxy2!".toList) ∧
        Ends width? crosses "12 xxy2!".toList stop last.1) ∧
      (Scanner.scan ⟨.table crosses, [], []⟩ "12 xxy2!".toList).tokens.map Token.face =
        [(some .number, .ofString "12"), (some .operator, .ofString "xx"),
          (some .identifier, .ofString "y2")] := by
  have within : Within width? crosses := width?_within crosses
  have unmarking : Unmarking crosses := by decide
  exact ⟨within, unmarking, calls_by_rank width? crosses _ within unmarking, by decide +kernel⟩

end Run

end ScanRule

end RecordGrammar
