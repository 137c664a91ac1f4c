import RecordGrammar.Proofs.Pattern.FirstChoice
import RecordGrammar.Scanner.Basic

namespace RecordGrammar

open RecordGrammar.Text

/-! Scanning by a table, from the front of a text to its end.

A reader that has not been led before the front of its text stays behind it, and every match takes a
character. So a scan that does not get stuck comes to the end of the text, and every token before
that was made by a rule of what its pattern stands for. -/

/-- The kind of a token and what it stands for. -/
abbrev Face := Option TokenKind × Wording

def Token.face (token : Token) : Face := (token.kind, token.text)

/-- The face of the token at the end of a text. -/
def Face.finish : Face := (some .endOfText, [])

namespace ScanRule

/-- What a rule makes of a text, if that is not skipped. -/
def face? (rule : ScanRule) (taken : List Char) : Option Face :=
  rule.kind.map fun kind => (some kind, (rule.meaning taken).getD (.ofChars taken))

/-- A token was made by a rule of a table, of some text that the pattern of the rule stands for. -/
def Recognized (rules : List ScanRule) (token : Token) : Prop :=
  ∃ rule ∈ rules, ∃ taken, taken ≠ [] ∧ rule.pattern.Covers taken ∧
    rule.face? taken = some token.face

/-- No rule makes tokens that mark the end. -/
def Unmarking (rules : List ScanRule) : Prop := ∀ rule ∈ rules, rule.kind ≠ some .endOfText

instance (rules : List ScanRule) : Decidable (Unmarking rules) :=
  inferInstanceAs (Decidable (∀ rule ∈ rules, rule.kind ≠ some .endOfText))

section Best

variable {rules : List ScanRule} {spot : Spot} {rule : ScanRule} {width : Nat}
  {widths : ScanRule → Spot → Option Nat}

theorem best?_of_each {good : ScanRule → Nat → Prop} {found : Option (ScanRule × Nat)}
    (each : ∀ rule ∈ rules, ∀ width, widths rule spot = some width → 0 < width → good rule width)
    (known : ∀ entry ∈ found, good entry.1 entry.2) :
    ∀ entry ∈ best? false spot rules found widths, good entry.1 entry.2 := by
  induction rules generalizing found with
  | nil => exact known
  | cons first rest ih =>
      have later := fun rule held => each rule (List.mem_cons_of_mem first held)
      unfold best?
      split
      · exact ih later known
      · rename_i width matched
        split
        · exact ih later known
        · rename_i counts
          have wide : 0 < width := by
            rcases Nat.eq_zero_or_pos width with rfl | wide
            · simp at counts
            · exact wide
          have here : ∀ entry ∈ some (first, width), good entry.1 entry.2 := by
            rintro entry ⟨⟩
            exact each first (by simp) width matched wide
          split
          · exact ih later here
          · split
            · exact ih later here
            · exact ih later known

theorem best?_mem (won : best? false spot rules none widths = some (rule, width)) :
    rule ∈ rules ∧ widths rule spot = some width ∧ 0 < width := by
  have each : ∀ rule ∈ rules, ∀ width, widths rule spot = some width → 0 < width →
      rule ∈ rules ∧ widths rule spot = some width ∧ 0 < width :=
    fun rule held width matched wide => ⟨held, matched, wide⟩
  have known : ∀ entry ∈ (none : Option (ScanRule × Nat)), entry.1 ∈ rules ∧
      widths entry.1 spot = some entry.2 ∧ 0 < entry.2 := by simp
  exact best?_of_each each known (rule, width) won

theorem width?_of_fails (fails : rule.pattern.Fails spot) : rule.width? spot = none := by
  rw [width?, Pattern.matchWidth?, fails some]
  rfl

theorem best?_of_fails {found : Option (ScanRule × Nat)}
    (fails : ∀ rule ∈ rules, rule.pattern.Fails spot) :
    best? false spot rules found = found := by
  induction rules with
  | nil => rfl
  | cons first rest ih =>
      rw [best?, width?_of_fails (fails first (by simp))]
      exact ih fun other held => fails other (by simp [held])

/-- A rule wins if it is the only one that matches. -/
theorem best?_only {before after : List ScanRule}
    (matched : rule.pattern.matchWidth? spot = some width) (wide : 0 < width)
    (others : ∀ other ∈ before ++ after, other.pattern.Fails spot) :
    best? false spot (before ++ rule :: after) none = some (rule, width) := by
  induction before with
  | nil =>
      have counts : (width == 0 && !false) = false := by simp; omega
      rw [List.nil_append, best?, show rule.width? spot = some width from matched]
      simp only [counts, Bool.false_eq_true, if_false]
      exact best?_of_fails others
  | cons first rest ih =>
      rw [List.cons_append, best?, width?_of_fails (others first (by simp))]
      exact ih fun other held => others other (by simp [List.mem_append.mp held])

/-- No rule of a table matches anything that begins with a character. -/
def silentAt (rules : List ScanRule) (c : Char) : Bool :=
  rules.all fun rule => !rule.pattern.nullable && !rule.pattern.mayBegin c

theorem fails_of_silentAt {first : Char} {rest : List Char} (silent : silentAt rules first = true)
    (held : rule ∈ rules) (ahead : spot.rest = first :: rest) : rule.pattern.Fails spot := by
  have quiet := List.all_eq_true.mp silent rule held
  simp only [Bool.and_eq_true, Bool.not_eq_true'] at quiet
  refine Pattern.fails_of_mayBegin quiet.1 fun c here => ?_
  rw [ahead] at here
  cases here
  exact quiet.2

/-- A rule wins where its pattern takes a text and no other rule matches anything that begins like
it. -/
theorem best?_of_over (before after : List ScanRule) {first : Char} {more rest : List Char}
    (takes : rule.pattern.Over (first :: more) rest)
    (silent : silentAt (before ++ after) first = true)
    (ahead : spot.rest = (first :: more) ++ rest) :
    best? false spot (before ++ rule :: after) none = some (rule, (first :: more).length) := by
  exact best?_only (takes.matchWidth? ahead) (Nat.succ_pos _) fun other held =>
    fails_of_silentAt silent held ahead

end Best

section Next

variable {rules : List ScanRule} {reader after : Reader} {token : Token} {fuel : Nat}

/-- What the next token is by a table: it marks the end, or a rule made it and something was
taken. -/
structure Comes (rules : List ScanRule) (reader : Reader) (token : Token)
    (after : Reader) : Prop where
  inside : 0 ≤ after.right
  placed : 0 ≤ token.position.index
  made : token.face = .finish ∨
    (Recognized rules token ∧ after.spot.remaining < reader.spot.remaining)

theorem nextWithin_comes (inside : 0 ≤ reader.right)
    (came : nextWithin rules fuel reader = (.ok token, after)) :
    Comes rules reader token after := by
  induction fuel generalizing reader with
  | zero => cases came
  | succ fuel ih =>
      unfold nextWithin at came
      split at came
      · cases came
        exact ⟨inside, inside, .inl rfl⟩
      · split at came
        · cases came
        · rename_i more _
          have started : decide (reader.right < 0) = false := by simpa using inside
          rw [bestAt?, started] at came
          split at came
          · cases came
          · rename_i rule width won
            obtain ⟨held, matched, wide⟩ := best?_mem won
            obtain ⟨within, covers⟩ := Pattern.covers_of_matchWidth? matched
            have counted := reader.spot.counted
            obtain ⟨right, spot⟩ := Reader.skip_natCast inside width
            have shorter : (reader.skip width).spot.remaining < reader.spot.remaining := by
              rw [spot, Spot.advance_remaining]
              omega
            split at came
            · obtain ⟨inside, placed, made⟩ := ih (by omega) came
              exact ⟨inside, placed, made.imp_right fun ⟨recognized, further⟩ =>
                ⟨recognized, by omega⟩⟩
            · rename_i kind kinded
              have taken : reader.spot.rest.take width ≠ [] := by
                simp only [ne_eq, List.take_eq_nil_iff]
                rintro (none | none)
                · omega
                · simp [none] at within
                  omega
              simp only [Reader.emit_natCast inside, Prod.mk.injEq, Except.ok.injEq] at came
              obtain ⟨rfl, rfl⟩ := came
              refine ⟨by omega, inside, .inr ⟨⟨rule, held, _, taken, covers, ?_⟩, shorter⟩⟩
              rw [face?, kinded]
              rfl

end Next

theorem Recognized.isEnd {rules : List ScanRule} {token : Token} (unmarking : Unmarking rules)
    (recognized : Recognized rules token) : token.isEnd = false := by
  obtain ⟨rule, held, taken, _, _, made⟩ := recognized
  obtain ⟨kind, kinded, same⟩ := Option.map_eq_some_iff.mp made
  have kinds : some kind = token.kind := congrArg Prod.fst same
  have plain := unmarking rule held
  rw [kinded, kinds] at plain
  simpa [Token.isEnd] using plain

end ScanRule

namespace Scanner

open ScanRule

variable {scanner : Scanner} {reader : Reader} {fuel : Nat}

/-- The table that a scanner goes by. -/
def rules (scanner : Scanner) : List ScanRule :=
  match scanner.dialect with
  | .table rules => rules
  | .lexemes _ | .answers _ => []

/-- A scanner that goes by a table and leaves no token out. -/
structure ByTable (scanner : Scanner) : Prop where
  dialect : scanner.dialect = .table scanner.rules
  omitted : scanner.omitted = []
  unmarking : Unmarking scanner.rules

theorem ByTable.next (byTable : scanner.ByTable) (reader : Reader) :
    scanner.next reader = ScanRule.next scanner.rules reader := by
  rw [Scanner.next, byTable.dialect]

theorem ByTable.calls (byTable : scanner.ByTable) (text : List Char) :
    scanner.calls text = text.length + 1 := by
  rw [Scanner.calls, byTable.dialect]

theorem ByTable.omits (byTable : scanner.ByTable) (token : Token) :
    scanner.omits token = false := by
  cases kind : token.kind <;> simp [Scanner.omits, byTable.omitted, kind]

/-- The tokens of a scan that does not get stuck: one at the end, and before it what rules made. -/
structure Recognizes (rules : List ScanRule) (tokens : List Token) (last : Token) : Prop where
  ended : last.face = .finish
  each : ∀ token ∈ tokens, ScanRule.Recognized rules token
  placed : ∀ token ∈ tokens ++ [last], 0 ≤ token.position.index

theorem ByTable.scanFrom_recognized (byTable : scanner.ByTable) (inside : 0 ≤ reader.right)
    (enough : reader.spot.remaining < fuel) (clean : (scanner.scanFrom fuel reader).error = none) :
    ∃ tokens last, (scanner.scanFrom fuel reader).tokens = tokens ++ [last] ∧
      Recognizes scanner.rules tokens last := by
  induction fuel generalizing reader with
  | zero => cases enough
  | succ fuel ih =>
      rw [scanFrom, byTable.next] at clean ⊢
      cases came : ScanRule.next scanner.rules reader with
      | mk result after =>
          cases result with
          | error error => simp [came] at clean
          | ok token =>
              have comes := nextWithin_comes inside came
              simp only [came, byTable.omits, Bool.false_eq_true, if_false] at clean ⊢
              rcases comes.made with ended | ⟨recognized, shorter⟩
              · have kind : token.kind = some .endOfText := congrArg Prod.fst ended
                have marked : token.isEnd = true := by simp [Token.isEnd, kind]
                simp only [marked, if_true]
                exact ⟨[], token, rfl, ended, by simp, by simpa using comes.placed⟩
              · simp only [recognized.isEnd byTable.unmarking, Bool.false_eq_true, if_false]
                  at clean ⊢
                obtain ⟨tokens, last, whole, recognizes⟩ := ih comes.inside (by omega) clean
                refine ⟨token :: tokens, last, by rw [whole]; rfl, recognizes.ended, ?_, ?_⟩
                · exact List.forall_mem_cons.mpr ⟨recognized, recognizes.each⟩
                · exact List.forall_mem_cons.mpr ⟨comes.placed, recognizes.placed⟩

/-- Where the scan of a text does not get stuck, it ends with a token at the end of the text, and
rules of the table made all others. -/
theorem ByTable.scan_recognized (byTable : scanner.ByTable) {text : List Char}
    (clean : (scanner.scan text).error = none) :
    ∃ tokens last, (scanner.scan text).tokens = tokens ++ [last] ∧
      Recognizes scanner.rules tokens last := by
  have inside : 0 ≤ (Reader.start text).right := Int.le_refl 0
  have enough : text.length < scanner.calls text := by
    rw [byTable.calls]
    exact Nat.lt_succ_self _
  exact byTable.scanFrom_recognized inside enough clean

end Scanner

namespace ScanRule

/-- The text from a spot on is cut into stretches, each with the rule that wins there. -/
inductive Course (rules : List ScanRule) : Spot → List (ScanRule × List Char) → Prop
  | done (ended : spot.rest = []) : Course rules spot []
  | wins {spot : Spot} {taken rest : List Char} {rule : ScanRule}
      {stretches : List (ScanRule × List Char)} (ahead : spot.rest = taken ++ rest)
      (won : best? false spot rules none = some (rule, taken.length))
      (later : Course rules (spot.advance taken.length) stretches) :
      Course rules spot ((rule, taken) :: stretches)

/-- What the rules make of some stretches of text. -/
def faces (stretches : List (ScanRule × List Char)) : List Face :=
  stretches.filterMap fun stretch => stretch.1.face? stretch.2

variable {rules : List ScanRule} {stretches : List (ScanRule × List Char)} {spot : Spot}

theorem nextWithin_course (unmarking : Unmarking rules) (course : Course rules spot stretches)
    {reader : Reader} {fuel : Nat} (inside : 0 ≤ reader.right) (here : reader.spot = spot)
    (enough : spot.remaining < fuel) :
    ∃ token after, nextWithin rules fuel reader = (.ok token, after) ∧ 0 ≤ after.right ∧
      ((token.face = .finish ∧ faces stretches = []) ∨
        (token.isEnd = false ∧ after.spot.remaining < spot.remaining ∧
          ∃ later, Course rules after.spot later ∧
          faces stretches = token.face :: faces later)) := by
  induction course generalizing reader fuel with
  | done none =>
      obtain ⟨fuel, rfl⟩ : ∃ less, fuel = less + 1 := ⟨fuel - 1, by omega⟩
      have ended : reader.hasMore = false := by
        rw [← Bool.not_eq_true, Reader.hasMore_iff inside, here]
        simpa using none
      exact ⟨reader.finish.1, reader.finish.2, by simp [nextWithin, ended], inside, .inl ⟨rfl, rfl⟩⟩
  | @wins spot taken rest rule stretches ahead won later ih =>
      obtain ⟨fuel, rfl⟩ : ∃ less, fuel = less + 1 := ⟨fuel - 1, by omega⟩
      obtain ⟨held, matched, wide⟩ := best?_mem won
      obtain ⟨within, _⟩ := Pattern.covers_of_matchWidth? matched
      have counted := spot.counted
      subst here
      obtain ⟨right, placed⟩ := Reader.skip_natCast inside taken.length
      have shorter : (reader.skip taken.length).spot.remaining < reader.spot.remaining := by
        rw [placed, Spot.advance_remaining]
        omega
      have more : reader.hasMore = true := by
        rw [Reader.hasMore_iff inside, ahead]
        intro none
        simp [List.append_eq_nil_iff.mp none] at wide
      have near : ¬ reader.right < -(lengthLimit : Int) := by omega
      have started : decide (reader.right < 0) = false := by simpa using inside
      have front : reader.spot.rest.take taken.length = taken := by rw [ahead, List.take_left]
      simp only [nextWithin, more, near, bestAt?, started, won, Bool.not_true,
        Bool.false_eq_true, if_false, decide_false, Bool.and_false, front,
        Reader.emit_natCast inside]
      cases kinded : rule.kind with
      | none =>
          have skipped : faces ((rule, taken) :: stretches) = faces stretches := by
            simp [faces, face?, kinded]
          have enough : (reader.spot.advance taken.length).remaining < fuel := by
            rw [← placed]
            omega
          obtain ⟨token, after, came, inside, made⟩ :=
            ih (show 0 ≤ (reader.skip taken.length).right by omega) placed
            enough
          refine ⟨token, after, came, inside, ?_⟩
          rw [skipped]
          rw [placed] at shorter
          exact made.imp_right fun ⟨unmarked, further, rest⟩ => ⟨unmarked, by omega, rest⟩
      | some kind =>
          refine ⟨_, _, rfl, by omega, .inr ⟨?_, shorter, stretches, placed ▸ later, ?_⟩⟩
          · have plain := unmarking rule held
            rw [kinded] at plain
            simpa [Token.isEnd] using plain
          · simp [faces, face?, kinded, Token.face]

end ScanRule

namespace Scanner

open ScanRule

variable {scanner : Scanner} {stretches : List (ScanRule × List Char)}

theorem ByTable.scanFrom_course (byTable : scanner.ByTable) {reader : Reader} {fuel : Nat}
    (inside : 0 ≤ reader.right) (course : Course scanner.rules reader.spot stretches)
    (enough : reader.spot.remaining < fuel) :
    (scanner.scanFrom fuel reader).error = none ∧
      (scanner.scanFrom fuel reader).tokens.map Token.face = faces stretches ++ [.finish] := by
  induction fuel generalizing reader stretches with
  | zero => cases enough
  | succ fuel ih =>
      obtain ⟨token, after, came, insideToo, made⟩ :=
        nextWithin_course byTable.unmarking course inside rfl
        (show _ < reader.spot.remaining + (-reader.right).toNat + 1 by omega)
      have next : scanner.next reader = (.ok token, after) := (byTable.next reader).trans came
      simp only [scanFrom, next, byTable.omits, Bool.false_eq_true, if_false]
      rcases made with ⟨ended, none⟩ | ⟨unmarked, shorter, later, onward, faces⟩
      · have kind : token.kind = some .endOfText := congrArg Prod.fst ended
        have marked : token.isEnd = true := by simp [Token.isEnd, kind]
        simp [marked, ended, none]
      · obtain ⟨clean, tokens⟩ := ih insideToo onward (by omega)
        simp [unmarked, clean, tokens, faces]

/-- A text that is cut into stretches is scanned stretch by stretch. -/
theorem ByTable.scan_course (byTable : scanner.ByTable) {text : List Char}
    (course : Course scanner.rules (.front text) stretches) :
    (scanner.scan text).error = none ∧ (scanner.scan text).tokens.map Token.face =
      faces stretches ++ [.finish] := by
  have inside : 0 ≤ (Reader.start text).right := Int.le_refl 0
  have enough : text.length < scanner.calls text := by
    rw [byTable.calls]
    exact Nat.lt_succ_self _
  exact byTable.scanFrom_course inside course enough

end Scanner

end RecordGrammar
