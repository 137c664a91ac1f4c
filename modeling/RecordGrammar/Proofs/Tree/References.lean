import RecordGrammar.Proofs.Registry.Compilation
import RecordGrammar.Proofs.Rule.Lexing
import RecordGrammar.Proofs.Text.Quoting
import RecordGrammar.Proofs.Tree.Fields
import RecordGrammar.Proofs.Tree.NormalForm

namespace RecordGrammar

open RecordGrammar.Text

/-! Which rules refer to shapes, told from their tokens and from the tree.

The builder reads a capture mark together with the token behind it, whatever groups are open, and
both belong to one rule. So marks pair up within each rule from the left, and two marks side by side
make a reference: in an odd row of them it is the last that is left over. -/

namespace Tree

theorem mem_referring {tree : Tree} {field : Field} :
    field ∈ tree.referring ↔ ∃ target, .reference target field ∈ tree.tips := by
  rw [referring, List.mem_filterMap]
  constructor
  · intro found
    obtain ⟨tip, inside, same⟩ := found
    cases tip with
    | leaf taker => cases same
    | reference target owner =>
        cases same
        exact ⟨target, inside⟩
  · intro found
    obtain ⟨target, inside⟩ := found
    exact ⟨_, inside, rfl⟩

end Tree

namespace RuleToken

/-- The field that a token behind a capture mark is a reference for, if it is a mark as well. -/
def refers (token : RuleToken) : List Field := if token.isMark "@" then [token.field] else []

/-- Tokens read from the left, each capture mark together with the token behind it, which belongs to
the same rule. The fields are those that the pairs are references for. -/
inductive Paired : List RuleToken → List Field → Prop
  | nil : Paired [] []
  | plain {token : RuleToken} {tokens : List RuleToken} {fields : List Field}
      (unmarked : token.isMark "@" = false)
      (rest : Paired tokens fields) : Paired (token :: tokens) fields
  | pair {sign token : RuleToken} {tokens : List RuleToken} {fields : List Field}
      (marked : sign.isMark "@" = true)
      (same : token.ordinal = sign.ordinal) (rest : Paired tokens fields) :
      Paired (sign :: token :: tokens) (token.refers ++ fields)

variable {sign token : RuleToken} {tokens own later : List RuleToken}
  {fields referring : List Field} {field : Field} {ordinal : Nat}

section Marks

theorem not_isMark_of_kind {mark : String} (kind : token.kind ≠ .operator) :
    token.isMark mark = false := by
  simp [isMark, kind]

theorem not_isMark_of_isMark {mark other : String} (marked : token.isMark mark = true)
    (differs : mark ≠ other) :
    token.isMark other = false := by
  obtain ⟨_, text⟩ := Tree.mark_of_isMark marked
  simp [isMark, text, differs]

/-- A quantifier is no capture mark. -/
theorem not_isMark_of_bound? {bound : Bound} (quantified : token.bound? = some bound) :
    token.isMark "@" = false := by
  cases marked : token.isMark "@" with
  | false => rfl
  | true => simp [Tree.bound?_of_isMark marked rfl] at quantified

end Marks

theorem refers_of_unmarked (unmarked : token.isMark "@" = false) : token.refers = [] := by
  rw [refers, unmarked]
  rfl

theorem refers_of_marked (marked : token.isMark "@" = true) : token.refers = [token.field] := by
  rw [refers, marked]
  rfl

theorem Paired.capture (marked : sign.isMark "@" = true) (same : token.ordinal = sign.ordinal)
    (unmarked : token.isMark "@" = false) (rest : Paired tokens referring) :
    Paired (sign :: token :: tokens) referring := by
  have pair := Paired.pair marked same rest
  rwa [refers_of_unmarked unmarked] at pair

theorem mentionsReference_plain (unmarked : token.isMark "@" = false) (tokens : List RuleToken) :
    mentionsReference (token :: tokens) = mentionsReference tokens := by
  cases tokens with
  | nil => rfl
  | cons next rest => rw [mentionsReference, unmarked, Bool.false_and, Bool.false_or]

/-- Where marks pair up, two of them stand side by side just if one of the pairs is a reference. -/
theorem Paired.mentionsReference_iff (paired : Paired tokens referring) :
    mentionsReference tokens = true ↔ referring ≠ [] := by
  induction paired with
  | nil => simp [mentionsReference]
  | plain unmarked rest ih => rwa [mentionsReference_plain unmarked]
  | @pair sign token tokens fields marked same rest ih =>
      cases again : token.isMark "@" with
      | true => simp [mentionsReference, marked, again, refers_of_marked again]
      | false =>
          rwa [mentionsReference, again, Bool.and_false, Bool.false_or,
            mentionsReference_plain again, refers_of_unmarked again]

theorem Paired.owned (paired : Paired tokens referring) :
    ∀ field ∈ referring, ∃ token ∈ tokens, token.field = field := by
  induction paired with
  | nil => simp
  | plain unmarked rest ih =>
      intro field inside
      obtain ⟨token, held, same⟩ := ih field inside
      exact ⟨token, List.mem_cons_of_mem _ held, same⟩
  | @pair sign token tokens fields marked same rest ih =>
      intro field inside
      rcases List.mem_append.mp inside with here | there
      · unfold refers at here
        split at here
        · exact ⟨token, by simp, (List.mem_singleton.mp here).symm⟩
        · cases here
      · obtain ⟨other, held, owns⟩ := ih field there
        exact ⟨other, by simp [held], owns⟩

/-- No pair reaches from one rule into the next. -/
theorem Paired.split (paired : Paired (own ++ later) referring)
    (here : ∀ token ∈ own, token.ordinal = ordinal)
    (apart : ∀ token ∈ later, token.ordinal ≠ ordinal) :
    ∃ first second, referring = first ++ second ∧ Paired own first ∧ Paired later second := by
  generalize joined : own ++ later = tokens at paired
  induction paired generalizing own with
  | nil =>
      obtain ⟨rfl, rfl⟩ := List.append_eq_nil_iff.mp joined
      exact ⟨[], [], rfl, .nil, .nil⟩
  | @plain token tokens fields unmarked rest ih =>
      cases own with
      | nil =>
          subst joined
          exact ⟨[], fields, rfl, .nil, .plain unmarked rest⟩
      | cons first own =>
          simp only [List.cons_append, List.cons.injEq] at joined
          obtain ⟨rfl, joined⟩ := joined
          obtain ⟨before, behind, rfl, inside, outside⟩ :=
            ih (List.forall_mem_cons.mp here).2 joined
          exact ⟨before, behind, rfl, .plain unmarked inside, outside⟩
  | @pair sign token tokens fields marked same rest ih =>
      match own with
      | [] =>
          subst joined
          exact ⟨[], _, rfl, .nil, .pair marked same rest⟩
      | [last] =>
          -- The token behind the last mark of a rule would be one of another rule.
          simp only [List.cons_append, List.nil_append, List.cons.injEq] at joined
          obtain ⟨rfl, rfl⟩ := joined
          exact absurd (same.trans (here last (by simp))) (apart token (by simp))
      | first :: second :: own =>
          simp only [List.cons_append, List.cons.injEq] at joined
          obtain ⟨rfl, rfl, joined⟩ := joined
          obtain ⟨before, behind, rfl, inside, outside⟩ :=
            ih (List.forall_mem_cons.mp (List.forall_mem_cons.mp here).2).2 joined
          exact ⟨_, behind, (List.append_assoc _ _ _).symm, .pair marked same inside, outside⟩

end RuleToken

namespace Tree

open RuleToken (Paired)

variable {context : RuleContext}

theorem CloseOf.paired {closing rest : List RuleToken} {bound : Bound} {fields : List Field}
    (closes : CloseOf closing bound) (later : Paired rest fields) :
    Paired (closing ++ rest) fields := by
  cases closes with
  | once closes => exact .plain (RuleToken.not_isMark_of_isMark closes (by decide)) later
  | repeated closes quantified =>
      exact .plain (RuleToken.not_isMark_of_isMark closes (by decide))
        (.plain (RuleToken.not_isMark_of_bound? quantified) later)

mutual
/-- What a derivation reads is read in pairs, and the references come out in the order of their
marks. -/
theorem ItemOf.paired {capturing : Bool} {tokens rest : List RuleToken} {tree : Tree}
    {fields : List Field} :
    ItemOf context capturing tokens tree → Paired rest fields →
      Paired (tokens ++ rest) (tree.referring ++ fields)
  | .literal kind, later => .plain (RuleToken.not_isMark_of_kind (by simp [kind])) later
  | .captured kind _, later => .plain (RuleToken.not_isMark_of_kind (by simp [kind])) later
  | .group opens inside, later =>
      .plain (RuleToken.not_isMark_of_isMark opens (by decide)) (inside.paired later)
  | .capture marked same inside, later => inside.paired _ marked (by simpa using same) later

theorem CaptureOf.paired {tokens rest : List RuleToken} {tree : Tree} {fields : List Field} :
    CaptureOf context tokens tree → (sign : RuleToken) → sign.isMark "@" = true →
      (∀ token ∈ tokens.head?, token.ordinal = sign.ordinal) → Paired rest fields →
      Paired (sign :: (tokens ++ rest)) (tree.referring ++ fields)
  | .group opens inside, _, marked, same, later =>
      .capture marked (same _ rfl) (RuleToken.not_isMark_of_isMark opens (by decide))
        (inside.paired later)
  | .name kind _ _, _, marked, same, later =>
      .capture marked (same _ rfl) (RuleToken.not_isMark_of_kind (by simp [kind])) later
  | .literal kind _, _, marked, same, later =>
      .capture marked (same _ rfl) (RuleToken.not_isMark_of_kind (by simp [kind])) later
  | .reference again, _, marked, same, later => by
      have pair := Paired.pair marked (same _ rfl) later
      rwa [RuleToken.refers_of_marked again] at pair

theorem GroupOf.paired {capturing : Bool} {tokens rest : List RuleToken} {tree : Tree}
    {fields : List Field} :
    GroupOf context capturing tokens tree → Paired rest fields →
      Paired (tokens ++ rest) (tree.referring ++ fields)
  | .closed inside closes, later => by
      rw [List.append_assoc, referring, tips, tips_choice]
      exact inside.paired (closes.paired later)

theorem RowOf.paired {capturing : Bool} {tokens rest : List RuleToken} {trees : List Tree}
    {fields : List Field} :
    RowOf context capturing tokens trees → Paired rest fields →
      Paired (tokens ++ rest) (referringAll trees ++ fields)
  | .nil, later => later
  | .cons first row, later => by
      rw [List.append_assoc, referringAll, tipsAll, List.filterMap_append, List.append_assoc]
      exact first.paired (row.paired later)

theorem ChoiceOf.paired {capturing : Bool} {tokens rest : List RuleToken} {branches : List Tree}
    {fields : List Field} :
    ChoiceOf context capturing tokens branches → Paired rest fields →
      Paired (tokens ++ rest) (referringAll branches ++ fields)
  | .last row, later => by
      rw [referringAll, tipsAll, tipsAll, List.append_nil]
      exact row.paired later
  | .more row bars choice, later => by
      rw [List.append_assoc, referringAll, tipsAll, List.filterMap_append, List.append_assoc]
      exact row.paired
        (.plain (RuleToken.not_isMark_of_kind (by simp [bars])) (choice.paired later))
end

/-- The marks of a rule that is built come in pairs, and simplifying leaves the references alone. -/
theorem build_paired {tokens : List RuleToken} {root : Tree}
    (built : build context tokens = .ok root) :
    Paired tokens root.referring := by
  obtain ⟨branches, derived, rfl⟩ := build_ok built
  have paired := derived.paired .nil
  rwa [List.append_nil, List.append_nil, referringAll, ← tips_choice, ← tips_simplify] at paired

end Tree

namespace RuleToken

variable {field other : Field} {fields referring : List Field} {ordinal number offset : Nat}
  {tokens : List RuleToken} {chars : List Char}

/-- The same token in the rule of another field. -/
def inRule (field : Field) (ordinal : Nat) (token : RuleToken) : RuleToken :=
  { token with field, ordinal }

theorem LaidOut.inRule (laid : LaidOut field ordinal offset chars tokens) (other : Field)
    (number : Nat) :
    LaidOut other number offset chars (tokens.map (inRule other number)) := by
  induction laid with
  | nil => exact .nil
  | blank skipped rest ih => exact .blank skipped ih
  | word spelled ends rest ih => exact .word spelled ends ih

theorem lex_inRule (same : other.rule = field.rule) (lexed : lex field ordinal = .ok tokens) :
    lex other number = .ok (tokens.map (inRule other number)) := by
  have reads := lex_reads field ordinal
  rw [lexed] at reads
  cases reads with
  | tokens laid =>
      rw [lex, same]
      exact (laid.inRule other number).lexFrom (Nat.le_refl _)

theorem mentionsReference_inRule (field : Field) (ordinal : Nat) (tokens : List RuleToken) :
    mentionsReference (tokens.map (inRule field ordinal)) = mentionsReference tokens := by
  fun_induction mentionsReference tokens with
  | case1 first second rest ih =>
      rw [List.map_cons, List.map_cons, mentionsReference, ← List.map_cons, ih]
      rfl
  | case2 tokens short =>
      cases tokens with
      | nil => rfl
      | cons first tokens =>
          cases tokens with
          | nil => rfl
          | cons second rest => exact absurd rfl (short first second rest)

/-- Whether a field refers to a shape is told from the tokens of its rule, wherever the field
stands. -/
theorem refers_iff (same : other.rule = field.rule) (lexed : lex field ordinal = .ok tokens) :
    other.Refers ↔ mentionsReference tokens = true := by
  constructor
  · intro refers
    obtain ⟨number, others, read, marks⟩ := refers
    rw [lex_inRule same lexed] at read
    cases read
    rwa [mentionsReference_inRule] at marks
  · intro marks
    exact ⟨ordinal, _, lex_inRule same lexed, (mentionsReference_inRule _ _ _).trans marks⟩

/-- The pairs of all rules together are references for the fields that refer to shapes. -/
theorem lexAll_referring (lexed : lexAll ordinal fields = .ok tokens)
    (paired : Paired tokens referring) (field : Field) :
    field ∈ referring ↔ field ∈ fields ∧ field.Refers := by
  induction fields generalizing ordinal tokens referring with
  | nil =>
      cases lexed
      cases paired
      simp
  | cons first rest ih =>
      obtain ⟨own, lexedOwn, lexed⟩ := Tree.bind_eq_ok lexed
      obtain ⟨later, lexedLater, lexed⟩ := Tree.bind_eq_ok lexed
      cases lexed
      have here := lexFrom_owned lexedOwn
      have apart : ∀ token ∈ later, token.ordinal ≠ ordinal := by
        intro token held
        have number := (lexAll_owned lexedLater token held).2
        omega
      obtain ⟨before, behind, rfl, inside, outside⟩ :=
        paired.split (fun token held => (here token held).2) apart
      have sole : ∀ other ∈ before, other = first := by
        intro other held
        obtain ⟨token, read, owned⟩ := inside.owned other held
        exact owned.symm.trans (here token read).1
      have refers : first.Refers ↔ before ≠ [] :=
        (refers_iff rfl lexedOwn).trans inside.mentionsReference_iff
      have start : field ∈ before ↔ field = first ∧ field.Refers := by
        constructor
        · intro held
          have same := sole field held
          exact ⟨same, same ▸ refers.mpr (List.ne_nil_of_mem held)⟩
        · intro own
          obtain ⟨same, referring⟩ := own
          obtain ⟨other, held⟩ := List.exists_mem_of_ne_nil before (refers.mp (same ▸ referring))
          exact same ▸ sole other held ▸ held
      rw [List.mem_append, start, ih lexedLater outside, List.mem_cons, or_and_right]

end RuleToken

namespace Shape

variable {shape : Shape} {id : ShapeId} {kinds : KindTable}

theorem warningsFrom_eq {fields referring : List Field} {ordinal : Nat} {tokens : List RuleToken}
    (lexed : RuleToken.lexAll ordinal fields = .ok tokens)
    (refers : ∀ field ∈ fields, (field ∈ referring ↔ field.Refers)) :
    shape.warningsFrom ordinal fields =
      (fields.filter fun field => field.element.isSome ∧ field ∉ referring).map
        shape.unusedElement := by
  induction fields generalizing ordinal tokens with
  | nil => rfl
  | cons field rest ih =>
      obtain ⟨own, lexedOwn, lexed⟩ := Tree.bind_eq_ok lexed
      obtain ⟨later, lexedLater, lexed⟩ := Tree.bind_eq_ok lexed
      obtain ⟨here, there⟩ := List.forall_mem_cons.mp refers
      rw [RuleToken.refers_iff rfl lexedOwn] at here
      have silent : (field.element.isSome && !RuleToken.mentionsReference own) =
          decide (field.element.isSome = true ∧ field ∉ referring) := by
        rw [Bool.eq_iff_iff]
        simp [here]
      simp only [warningsFrom, lexedOwn, ih lexedLater there, silent, List.filter_cons]
      split <;> rfl

/-- A warning names the field and its rule. -/
theorem unusedElement_inj {field other : Field}
    (same : shape.unusedElement field = shape.unusedElement other) :
    field.name = other.name ∧ field.rule = other.rule := by
  have chars := congrArg String.toList same
  simp only [unusedElement, String.toList_append, List.append_assoc,
    List.append_cancel_left_eq] at chars
  obtain ⟨names, chars⟩ := quote_append_inj chars
  simp only [List.append_cancel_left_eq] at chars
  exact ⟨names, (quote_append_inj chars).1⟩

theorem compile_warnings (pending : shape.phase = .pending) (id : ShapeId) (kinds : KindTable) :
    (shape.compile id kinds).warnings = shape.warningsFrom 0 shape.fields := by
  unfold compile
  simp only [pending]
  cases RuleToken.lexAll 0 shape.fields with
  | error error => rfl
  | ok tokens =>
      simp only
      cases Tree.build { kinds, owner := .shape id shape.name } tokens <;> rfl

/-- When the rules of a shape are compiled, the fields that are warned of are those that name an
element and have no reference in the tree. What the tree says is what the rules say: a field has a
reference in it just if two capture marks stand side by side in the field's own rule. -/
theorem compile_warns (pending : shape.phase = .pending)
    (compiled : (shape.compile id kinds).error = none) :
    ∃ root, (shape.compile id kinds).shape.root = some root ∧
      (shape.compile id kinds).warnings =
        (shape.fields.filter fun field => field.element.isSome ∧ field ∉ root.referring).map
          shape.unusedElement ∧
      ∀ field ∈ shape.fields,
        (field.Refers ↔ ∃ target, .reference target field ∈ root.tips) ∧
        (field.element.isSome = true →
          (shape.unusedElement field ∈ (shape.compile id kinds).warnings ↔
            ∀ target, .reference target field ∉ root.tips)) := by
  cases made : shape.ruleTree id kinds with
  | error error => simp [(compile_of_error pending made).1] at compiled
  | ok root =>
      obtain ⟨_, tokens, same⟩ := compile_of_ok pending made
      obtain ⟨tokens, lexed, built⟩ := Tree.bind_eq_ok made
      have referring := RuleToken.lexAll_referring lexed (Tree.build_paired built)
      have refers (field : Field) (held : field ∈ shape.fields) : field ∈ root.referring ↔
          field.Refers := by
        rw [referring, and_iff_right held]
      have warned := (compile_warnings pending id kinds).trans (warningsFrom_eq lexed refers)
      refine ⟨root, by rw [same], warned, fun field held => ⟨?_, fun element => ?_⟩⟩
      · rw [← refers field held, Tree.mem_referring]
      · rw [warned, ← not_exists, ← Tree.mem_referring, List.mem_map]
        constructor
        · -- A warning in the same words is about the same rule, which refers to a shape or does
          -- not.
          intro worded referred
          obtain ⟨other, listed, words⟩ := worded
          obtain ⟨inside, spare⟩ := List.mem_filter.mp listed
          obtain ⟨ordinal, own, lexedOwn, marks⟩ := (refers field held).mp referred
          have also : other.Refers :=
            (RuleToken.refers_iff (unusedElement_inj words).2 lexedOwn).mpr marks
          exact (of_decide_eq_true spare).2 ((refers other inside).mpr also)
        · intro absent
          exact ⟨field, List.mem_filter.mpr ⟨held, decide_eq_true ⟨element, absent⟩⟩, rfl⟩

end Shape

namespace Nest

/-- A field whose rule opens a group and refers to its element twice. -/
def kids : Field where
  name := "kids"
  rule := "( @@@@ |"
  kind := .nested
  element := some (.named "Kid")
  many := true

/-- A field whose rule closes that group. Its capture mark stands before a group, so its element is
never meant. -/
def spare : Field where
  name := "spare"
  rule := "@( ) ) *"
  kind := .nested
  element := some (.named "Spare")

def mixed : Shape where
  name := "Mixed"
  fields := [kids, spare]

set_option maxRecDepth 4000 in
theorem spare_warned :
    mixed.phase = .pending ∧ (mixed.compile 0 .standard).error = none ∧
      (mixed.compile 0 .standard).warnings = [mixed.unusedElement spare] ∧
      ∃ root, (mixed.compile 0 .standard).shape.root = some root ∧
        (∃ target, .reference target kids ∈ root.tips) ∧
        ∀ target, .reference target spare ∉ root.tips := by
  have compiled : (mixed.compile 0 .standard).error = none := by cbv
  have warned : (mixed.compile 0 .standard).warnings = [mixed.unusedElement spare] := by cbv
  obtain ⟨root, stored, _, told⟩ :=
    Shape.compile_warns (show mixed.phase = .pending from rfl) compiled
  have refers : kids.Refers := ⟨0, _, rfl, by decide⟩
  refine ⟨rfl, compiled, warned, root, stored, (told kids (by simp [mixed])).1.mp refers, ?_⟩
  apply ((told spare (by simp [mixed])).2 rfl).mp
  rw [warned]
  exact List.mem_singleton.mpr rfl

end Nest

end RecordGrammar
