import RecordGrammar.Proofs.Rule.Spelling
import RecordGrammar.Proofs.Tree.RuleGrammar

namespace RecordGrammar

open RecordGrammar.Text

/-! Writing a tree as a rule and building the rule into a tree again.

A tree may be written in many ways: with either quote, with more backslashes and white space than
needed, and with parentheses around any part. All of them are read back as the simplified tree, and
a tree in normal form is its own simplified form. -/

/-- The same leaf in another field. -/
def Leaf.inField (field : Field) : Leaf → Leaf
  | .literal text _ => .literal text field
  | .captureLiteral text _ => .captureLiteral text field
  | .captureKind kind name _ => .captureKind kind name field

namespace Tree

mutual
/-- The same tree in another field. -/
def inField (field : Field) : Tree → Tree
  | .empty => .empty
  | .sequence members => .sequence (inFieldAll field members)
  | .alternation branches => .alternation (inFieldAll field branches)
  | .repetition inner bound => .repetition (inner.inField field) bound
  | .leaf taker => .leaf (taker.inField field)
  | .reference target _ => .reference target field

def inFieldAll (field : Field) : List Tree → List Tree
  | [] => []
  | tree :: rest => tree.inField field :: inFieldAll field rest
end

/-- What the nodes of a tree in normal form are like: simplifying does not apply to any. -/
def NormalNode : Tree → Prop
  | .sequence members => 2 ≤ members.length
  | .alternation branches => 2 ≤ branches.length
  | .repetition _ bound => bound ≠ .once
  | _ => True

abbrev Normal (tree : Tree) : Prop := tree.Every NormalNode

/-- What the nodes of a tree are like that the rule of one field may stand for. -/
def OwnNode (context : RuleContext) (field : Field) : Tree → Prop
  | .leaf (.literal _ owner) => owner = field
  | .leaf (.captureLiteral _ owner) => owner = field ∧ field.kind ≠ .nested
  | .leaf (.captureKind kind name owner) =>
      owner = field ∧ field.kind ≠ .nested ∧ context.kinds.kindOf? name = some kind ∧
        isPlainWord name = true
  | .reference target owner => owner = field ∧ target = field.element.getD context.owner
  | _ => True

abbrev BelongsTo (context : RuleContext) (field : Field) (tree : Tree) : Prop :=
  tree.Every (OwnNode context field)

/-- A quantifier as it is written after a group. -/
def quantifierWords : Bound → List RuleWord
  | .once => []
  | .onceOrMore => [.mark "+"]
  | .optional => [.mark "?"]
  | .optionalOrMore => [.mark "*"]

mutual
/-- The words of a tree that stands in a sequence. -/
inductive WritesItem : Tree → List RuleWord → Prop
  | literal : WritesItem (.leaf (.literal text field)) [.literal text]
  | captureLiteral : WritesItem (.leaf (.captureLiteral text field)) [.mark "@", .literal text]
  | captureKind : WritesItem (.leaf (.captureKind kind name field)) [.mark "@", .name name]
  | reference : WritesItem (.reference target field) [.mark "@", .mark "@"]
  | group (inside : WritesChoice tree words) : WritesItem tree (.mark "(" :: (words ++ [.mark ")"]))
  | repetition {inner : Tree} (inside : WritesChoice inner words) :
      WritesItem (.repetition inner bound)
        (.mark "(" :: (words ++ .mark ")" :: quantifierWords bound))

inductive WritesRow : List Tree → List RuleWord → Prop
  | nil : WritesRow [] []
  | cons (first : WritesItem tree words) (rest : WritesRow trees later) :
      WritesRow (tree :: trees) (words ++ later)

/-- The words of a tree that stands between bars. -/
inductive WritesBranch : Tree → List RuleWord → Prop
  | empty : WritesBranch .empty []
  | item (only : WritesItem tree words) : WritesBranch tree words
  | sequence (row : WritesRow members words) : WritesBranch (.sequence members) words

inductive WritesBars : List Tree → List RuleWord → Prop
  | last (branch : WritesBranch tree words) : WritesBars [tree] words
  | more (branch : WritesBranch tree words) (rest : WritesBars trees later) :
      WritesBars (tree :: trees) (words ++ .bar :: later)

/-- The words of a tree that stands between parentheses, or alone. -/
inductive WritesChoice : Tree → List RuleWord → Prop
  | branch (only : WritesBranch tree words) : WritesChoice tree words
  | alternation (bars : WritesBars branches words) : WritesChoice (.alternation branches) words
end

/-- A rule that a tree is written as. -/
def WrittenAs (tree : Tree) (rule : String) : Prop :=
  ∃ words, WritesChoice tree words ∧ RuleWord.Writes words rule.toList

theorem inFieldAll_eq_map (field : Field) (trees : List Tree) :
    inFieldAll field trees = trees.map (inField field) := by
  induction trees with
  | nil => rfl
  | cons tree rest ih => simp only [inFieldAll, List.map_cons, ih]

section Reading

variable {context : RuleContext} {field : Field} {rule : String} {ordinal : Nat}

theorem of_word {token : RuleToken} {word : RuleWord} (same : token.word = word) :
    token.kind = word.kind ∧ token.text = word.text := by
  rw [← same]
  exact ⟨rfl, rfl⟩

theorem isMark_of_word {token : RuleToken} (same : token.word = .mark mark) :
    token.isMark mark = true := by
  obtain ⟨kind, text⟩ := of_word same
  simp only [RuleToken.isMark, kind, text, RuleWord.mark, beq_self_eq_true, Bool.and_self]

theorem bound?_of_word {token : RuleToken} (same : token.word = .mark mark) :
    token.bound? = Bound.ofMark? mark := by
  obtain ⟨kind, text⟩ := of_word same
  simp only [RuleToken.bound?, kind, text, RuleWord.mark, if_true]

theorem capture_placed {word : RuleWord} {tokens : List RuleToken}
    (placed : RuleToken.Placed field ordinal [.mark "@", word] tokens) :
    ∃ sign token, tokens = [sign, token] ∧ sign.isMark "@" = true ∧ token.ordinal = sign.ordinal ∧
      token.word = word ∧ token.field = field := by
  obtain ⟨sign, rest, rfl, marked, _, place, placed⟩ := placed.cons
  obtain ⟨token, rest, rfl, same, own, placeToo, placed⟩ := placed.cons
  obtain rfl := placed.nil
  exact ⟨sign, token, rfl, isMark_of_word marked, placeToo.trans place.symm, same, own⟩

theorem closeOf_placed {bound : Bound} {tokens : List RuleToken}
    (placed : RuleToken.Placed field ordinal (.mark ")" :: quantifierWords bound) tokens) :
    CloseOf tokens bound := by
  obtain ⟨closer, rest, rfl, closes, _, _, placed⟩ := placed.cons
  cases bound with
  | once =>
      obtain rfl := placed.nil
      exact .once (isMark_of_word closes)
  | onceOrMore | optional | optionalOrMore =>
      obtain ⟨quantifier, rest, rfl, word, _, _, placed⟩ := placed.cons
      obtain rfl := placed.nil
      exact .repeated (isMark_of_word closes) (bound?_of_word word)

mutual
/-- What is written for a tree derives one that simplifies to the same. -/
theorem WritesItem.derives {tree : Tree} {words : List RuleWord} :
    WritesItem tree words → (tokens : List RuleToken) →
      RuleToken.Placed { field with rule := rule } ordinal words tokens →
      tree.BelongsTo context field → ∃ raw, ItemOf context false tokens raw ∧
        raw.simplify = (tree.inField { field with rule := rule }).simplify
  | .literal, tokens, placed, owned => by
      obtain ⟨token, rest, rfl, word, own, _, placed⟩ := placed.cons
      obtain rfl := placed.nil
      obtain ⟨kind, text⟩ := of_word word
      refine ⟨_, .literal kind, ?_⟩
      rw [own, text]
      rfl
  | .captureLiteral, tokens, placed, owned => by
      obtain ⟨sign, token, rfl, marked, same, word, own⟩ := capture_placed placed
      obtain ⟨kind, text⟩ := of_word word
      obtain ⟨_, scalar⟩ := every_leaf.mp owned
      refine ⟨_, .capture marked same (.literal kind (own ▸ scalar)), ?_⟩
      rw [own, text]
      rfl
  | .captureKind, tokens, placed, owned => by
      obtain ⟨sign, token, rfl, marked, same, word, own⟩ := capture_placed placed
      obtain ⟨kind, text⟩ := of_word word
      obtain ⟨_, scalar, known, _⟩ := every_leaf.mp owned
      dsimp only [RuleWord.name] at text
      rw [← text] at known
      refine ⟨_, .capture marked same (.name kind known (own ▸ scalar)), ?_⟩
      rw [own, text]
      rfl
  | .reference, tokens, placed, owned => by
      obtain ⟨sign, token, rfl, marked, same, word, own⟩ := capture_placed placed
      obtain ⟨_, target⟩ := every_reference.mp owned
      refine ⟨_, .capture marked same (.reference (isMark_of_word word)), ?_⟩
      rw [own, target]
      rfl
  | .group inside, tokens, placed, owned => by
      obtain ⟨opener, rest, rfl, opens, _, _, placed⟩ := placed.cons
      obtain ⟨inner, closing, rfl, first, placed⟩ := placed.append
      have closes : CloseOf closing .once := closeOf_placed placed
      obtain ⟨branches, derived, same⟩ := inside.derives inner first owned
      exact ⟨_, .group (isMark_of_word opens) (.closed derived closes), same⟩
  | .repetition inside, tokens, placed, owned => by
      obtain ⟨opener, rest, rfl, opens, _, _, placed⟩ := placed.cons
      obtain ⟨inner, closing, rfl, first, placed⟩ := placed.append
      obtain ⟨_, insideOwned⟩ := every_repetition.mp owned
      obtain ⟨branches, derived, same⟩ := inside.derives inner first insideOwned
      refine ⟨_, .group (isMark_of_word opens) (.closed derived (closeOf_placed placed)), ?_⟩
      rw [inField, simplify_repetition_congr same]

theorem WritesRow.derives {trees : List Tree} {words : List RuleWord} :
    WritesRow trees words → (tokens : List RuleToken) →
      RuleToken.Placed { field with rule := rule } ordinal words tokens →
      (∀ tree ∈ trees, tree.BelongsTo context field) →
      ∃ raws, RowOf context false tokens raws ∧
        raws.map simplify = (trees.map (inField { field with rule := rule })).map simplify
  | .nil, tokens, placed, _ => by
      obtain rfl := placed.nil
      exact ⟨[], .nil, rfl⟩
  | .cons first rest, tokens, placed, owned => by
      obtain ⟨firstTokens, restTokens, rfl, firstPlaced, restPlaced⟩ := placed.append
      obtain ⟨raw, derived, same⟩ := first.derives firstTokens firstPlaced (owned _ (by simp))
      obtain ⟨raws, derivedRest, sameRest⟩ := rest.derives restTokens restPlaced
        (fun tree member => owned tree (List.mem_cons_of_mem _ member))
      refine ⟨raw :: raws, .cons derived derivedRest, ?_⟩
      rw [List.map_cons, List.map_cons, List.map_cons, same, sameRest]

theorem WritesBranch.derives {tree : Tree} {words : List RuleWord} :
    WritesBranch tree words → (tokens : List RuleToken) →
      RuleToken.Placed { field with rule := rule } ordinal words tokens →
      tree.BelongsTo context field → ∃ raws, RowOf context false tokens raws ∧
        (sequence raws).simplify = (tree.inField { field with rule := rule }).simplify
  | .empty, tokens, placed, _ => by
      obtain rfl := placed.nil
      exact ⟨[], .nil, rfl⟩
  | .item only, tokens, placed, owned => by
      obtain ⟨raw, derived, same⟩ := only.derives tokens placed owned
      refine ⟨[raw], ?_, same⟩
      rw [← List.append_nil tokens]
      exact .cons derived .nil
  | .sequence row, tokens, placed, owned => by
      obtain ⟨_, inside⟩ := every_sequence.mp owned
      obtain ⟨raws, derived, same⟩ := row.derives tokens placed inside
      refine ⟨raws, derived, ?_⟩
      rw [inField, inFieldAll_eq_map, simplify_sequence_eq_row, simplify_sequence_eq_row, same]

theorem WritesBars.derives {trees : List Tree} {words : List RuleWord} :
    WritesBars trees words → (tokens : List RuleToken) →
      RuleToken.Placed { field with rule := rule } ordinal words tokens →
      (∀ tree ∈ trees, tree.BelongsTo context field) →
      ∃ branches, ChoiceOf context false tokens branches ∧
        branches.map simplify = (trees.map (inField { field with rule := rule })).map simplify
  | .last branch, tokens, placed, owned => by
      obtain ⟨raws, derived, same⟩ := branch.derives tokens placed (owned _ (by simp))
      refine ⟨_, .last derived, ?_⟩
      rw [List.map_singleton, List.map_singleton, List.map_singleton, same]
  | .more branch rest, tokens, placed, owned => by
      obtain ⟨firstTokens, restTokens, rfl, firstPlaced, restPlaced⟩ := placed.append
      obtain ⟨bar, restTokens, rfl, bars, _, _, restPlaced⟩ := restPlaced.cons
      obtain ⟨raws, derived, same⟩ := branch.derives firstTokens firstPlaced (owned _ (by simp))
      obtain ⟨branches, derivedRest, sameRest⟩ := rest.derives restTokens restPlaced
        (fun tree member => owned tree (List.mem_cons_of_mem _ member))
      refine ⟨_, .more derived (of_word bars).1 derivedRest, ?_⟩
      rw [List.map_cons, List.map_cons, List.map_cons, same, sameRest]

theorem WritesChoice.derives {tree : Tree} {words : List RuleWord} :
    WritesChoice tree words → (tokens : List RuleToken) →
      RuleToken.Placed { field with rule := rule } ordinal words tokens →
      tree.BelongsTo context field → ∃ branches, ChoiceOf context false tokens branches ∧
        (choice branches).simplify = (tree.inField { field with rule := rule }).simplify
  | .branch only, tokens, placed, owned => by
      obtain ⟨raws, derived, same⟩ := only.derives tokens placed owned
      exact ⟨_, .last derived, same⟩
  | .alternation bars, tokens, placed, owned => by
      obtain ⟨_, inside⟩ := every_alternation.mp owned
      obtain ⟨branches, derived, same⟩ := bars.derives tokens placed inside
      refine ⟨branches, derived, ?_⟩
      rw [inField, inFieldAll_eq_map, simplify_choice, simplify_alternation_eq_choice,
        simplify_alternation_eq_choice, same]
end

end Reading

theorem map_map_simplify {trees : List Tree}
    (fixed : ∀ tree ∈ trees, (tree.inField field).simplify = tree.inField field) :
    (trees.map (inField field)).map simplify = trees.map (inField field) := by
  rw [List.map_map]
  exact List.map_congr_left fixed

theorem simplify_inField {tree : Tree} (normal : tree.Normal) (field : Field) :
    (tree.inField field).simplify = tree.inField field := by
  induction tree with
  | empty => rfl
  | leaf taker => rfl
  | reference target owner => rfl
  | sequence members ih =>
      obtain ⟨plural, inside⟩ := every_sequence.mp normal
      have several : 2 ≤ (members.map (inField field)).length := by
        rw [List.length_map]
        exact plural
      rw [inField, inFieldAll_eq_map, simplify_sequence several,
        map_map_simplify (fun member held => ih member held (inside member held))]
  | alternation branches ih =>
      obtain ⟨plural, inside⟩ := every_alternation.mp normal
      have several : (branches.map (inField field)).length ≠ 1 := by
        simp only [NormalNode] at plural
        rw [List.length_map]
        omega
      rw [inField, inFieldAll_eq_map, simplify_alternation several,
        map_map_simplify (fun branch held => ih branch held (inside branch held))]
  | repetition inner bound ih =>
      obtain ⟨several, inside⟩ := every_repetition.mp normal
      rw [inField, simplify_repetition _ several, ih inside]

theorem inField_self {tree : Tree} (owned : tree.BelongsTo context field) :
    tree.inField field = tree := by
  induction tree with
  | empty => rfl
  | leaf taker =>
      have own := every_leaf.mp owned
      cases taker with
      | literal text owner => rw [inField, Leaf.inField, ← own]
      | captureLiteral text owner => rw [inField, Leaf.inField, ← own.1]
      | captureKind kind name owner => rw [inField, Leaf.inField, ← own.1]
  | reference target owner => rw [inField, ← (every_reference.mp owned).1]
  | sequence members ih =>
      have inside := (every_sequence.mp owned).2
      rw [inField, inFieldAll_eq_map,
        List.map_congr_left (fun member held => ih member held (inside member held)), List.map_id']
  | alternation branches ih =>
      have inside := (every_alternation.mp owned).2
      rw [inField, inFieldAll_eq_map,
        List.map_congr_left (fun branch held => ih branch held (inside branch held)), List.map_id']
  | repetition inner bound ih => rw [inField, ih (every_repetition.mp owned).2]

section Writing

open RuleWord

def leafWords : Leaf → List RuleWord
  | .literal text _ => [.literal text]
  | .captureLiteral text _ => [.mark "@", .literal text]
  | .captureKind _ name _ => [.mark "@", .name name]

/-- What is written for a tree beside others, where some trees need parentheses. -/
def enclosed (tree : Tree) (words : List RuleWord) : List RuleWord :=
  match tree with
  | .empty | .sequence _ | .alternation _ => .mark "(" :: (words ++ [.mark ")"])
  | _ => words

mutual
/-- One way to write a tree, with parentheses only where they are needed. -/
def words : Tree → List RuleWord
  | .empty => []
  | .sequence members => rowWords members
  | .alternation branches => barWords branches
  | .repetition inner bound => .mark "(" :: (inner.words ++ .mark ")" :: quantifierWords bound)
  | .leaf taker => leafWords taker
  | .reference _ _ => [.mark "@", .mark "@"]

def rowWords : List Tree → List RuleWord
  | [] => []
  | tree :: rest => tree.enclosed tree.words ++ rowWords rest

def barWords : List Tree → List RuleWord
  | [] => []
  | [tree] => tree.enclosed tree.words
  | tree :: next :: rest => tree.enclosed tree.words ++ .bar :: barWords (next :: rest)
end

/-- A rule that stands for a tree. -/
def rule (tree : Tree) : String := String.ofList (spellings tree.words)

theorem writesRow_rowWords {members : List Tree}
    (written : ∀ member ∈ members, WritesItem member (member.enclosed member.words)) :
    WritesRow members (rowWords members) := by
  induction members with
  | nil => exact .nil
  | cons member rest ih =>
      exact .cons (written member (by simp))
        (ih fun other held => written other (List.mem_cons_of_mem _ held))

theorem writesBars_barWords {branches : List Tree} (some : branches ≠ [])
    (written : ∀ branch ∈ branches, WritesItem branch (branch.enclosed branch.words)) :
    WritesBars branches (barWords branches) := by
  induction branches with
  | nil => contradiction
  | cons branch rest ih =>
      have first := WritesBranch.item (written branch (by simp))
      cases rest with
      | nil => exact .last first
      | cons next rest =>
          exact .more first
            (ih (by simp) fun other held => written other (List.mem_cons_of_mem _ held))

/-- The words are a way to write the tree alone, and with parentheses beside others. -/
theorem writes_words {tree : Tree} (normal : tree.Normal) :
    WritesChoice tree tree.words ∧ WritesItem tree (tree.enclosed tree.words) := by
  induction tree with
  | empty =>
      have alone := WritesChoice.branch .empty
      exact ⟨alone, .group alone⟩
  | leaf taker =>
      have beside : WritesItem (.leaf taker) (leafWords taker) := by
        cases taker with
        | literal text field => exact .literal
        | captureLiteral text field => exact .captureLiteral
        | captureKind kind name field => exact .captureKind
      exact ⟨.branch (.item beside), beside⟩
  | reference target field => exact ⟨.branch (.item .reference), .reference⟩
  | sequence members ih =>
      obtain ⟨_, inside⟩ := every_sequence.mp normal
      have row := writesRow_rowWords fun member held => (ih member held (inside member held)).2
      have alone := WritesChoice.branch (.sequence row)
      exact ⟨alone, .group alone⟩
  | alternation branches ih =>
      obtain ⟨plural, inside⟩ := every_alternation.mp normal
      have some : branches ≠ [] := by
        rintro rfl
        simp [NormalNode] at plural
      have bars :=
        writesBars_barWords some fun branch held => (ih branch held (inside branch held)).2
      have alone := WritesChoice.alternation bars
      exact ⟨alone, .group alone⟩
  | repetition inner bound ih =>
      obtain ⟨_, inside⟩ := every_repetition.mp normal
      have beside : WritesItem (.repetition inner bound) (repetition inner bound).words :=
        .repetition (ih inside).1
      exact ⟨.branch (.item beside), beside⟩

theorem spelled_enclosed (tree : Tree) (inside : Spelled written) :
    Spelled (tree.enclosed written) := by
  have grouped : Spelled (.mark "(" :: (written ++ [.mark ")"])) :=
    .cons (spells_mark (by decide)) (inside.append (.cons (spells_mark (by decide)) .nil))
  cases tree with
  | empty | sequence | alternation => exact grouped
  | repetition | leaf | reference => exact inside

theorem spelled_rowWords {members : List Tree}
    (spelled : ∀ member ∈ members, Spelled member.words) :
    Spelled (rowWords members) := by
  induction members with
  | nil => exact .nil
  | cons member rest ih =>
      have first := spelled_enclosed member (spelled member (by simp))
      exact first.append (ih fun other held => spelled other (List.mem_cons_of_mem _ held))

theorem spelled_barWords {branches : List Tree}
    (spelled : ∀ branch ∈ branches, Spelled branch.words) :
    Spelled (barWords branches) := by
  induction branches with
  | nil => exact .nil
  | cons branch rest ih =>
      have first := spelled_enclosed branch (spelled branch (by simp))
      cases rest with
      | nil => exact first
      | cons next rest =>
          have later := ih fun other held => spelled other (List.mem_cons_of_mem _ held)
          exact first.append (.cons .bar later)

theorem spelled_words {tree : Tree} (owned : tree.BelongsTo context field) :
    Spelled tree.words := by
  induction tree with
  | empty => exact .nil
  | leaf taker =>
      have own := every_leaf.mp owned
      cases taker with
      | literal text owner => exact .cons (spells_literal text) .nil
      | captureLiteral text owner =>
          exact .cons (spells_mark (by decide)) (.cons (spells_literal text) .nil)
      | captureKind kind name owner =>
          exact .cons (spells_mark (by decide)) (.cons (spells_name own.2.2.2) .nil)
  | reference target owner =>
      exact .cons (spells_mark (by decide)) (.cons (spells_mark (by decide)) .nil)
  | sequence members ih =>
      obtain ⟨_, inside⟩ := every_sequence.mp owned
      exact spelled_rowWords fun member held => ih member held (inside member held)
  | alternation branches ih =>
      obtain ⟨_, inside⟩ := every_alternation.mp owned
      exact spelled_barWords fun branch held => ih branch held (inside branch held)
  | repetition inner bound ih =>
      obtain ⟨_, inside⟩ := every_repetition.mp owned
      have quantifier : Spelled (quantifierWords bound) := by
        cases bound with
        | once => exact .nil
        | _ => exact .cons (spells_mark (by decide)) .nil
      exact .cons (spells_mark (by decide))
        ((ih inside).append (.cons (spells_mark (by decide)) quantifier))

theorem writtenAs_rule {tree : Tree} (normal : tree.Normal) (owned : tree.BelongsTo context field) :
    tree.WrittenAs tree.rule := by
  refine ⟨tree.words, (writes_words normal).1, ?_⟩
  rw [rule, String.toList_ofList]
  exact writes_spellings (spelled_words owned)

end Writing

/-- However a tree is written, it is read back as the simplified tree. -/
theorem lex_build_of_writtenAs {tree : Tree} {context : RuleContext} {field : Field} {rule : String}
    (written : tree.WrittenAs rule) (owned : tree.BelongsTo context field) (ordinal : Nat) :
    (RuleToken.lex { field with rule := rule } ordinal >>= build context) =
      .ok (tree.inField { field with rule := rule }).simplify := by
  obtain ⟨words, writesTree, writesRule⟩ := written
  obtain ⟨tokens, lexed, placed⟩ := lexFrom_writes writesRule (Nat.le_refl _)
  obtain ⟨branches, derived, same⟩ := writesTree.derives tokens placed owned
  have built : build context tokens = .ok (choice branches).simplify := by
    rw [build_eq_map, derived.buildFrom_eq]
    rfl
  rw [RuleToken.lex, lexed, ← same]
  exact built

/-- Rules are a faithful notation for the trees in normal form whose leaves belong to one field.
Each has a rule, and from every rule that it is written as, the same tree is built in the field with
that rule; if the field has the rule already, it is the very tree. -/
theorem lex_build_written {tree : Tree} {context : RuleContext} {field : Field}
    (normal : tree.Normal) (owned : tree.BelongsTo context field) :
    tree.WrittenAs tree.rule ∧
    (∀ rule ordinal, tree.WrittenAs rule →
      (RuleToken.lex { field with rule := rule } ordinal >>= build context) =
        .ok (tree.inField { field with rule := rule })) ∧
    ∀ ordinal, tree.WrittenAs field.rule →
    (RuleToken.lex field ordinal >>= build context) = .ok tree := by
  have reads : ∀ rule ordinal, tree.WrittenAs rule →
      (RuleToken.lex { field with rule := rule } ordinal >>= build context) =
        .ok (tree.inField { field with rule := rule }) := by
    intro rule ordinal written
    rw [lex_build_of_writtenAs written owned ordinal, simplify_inField normal]
  refine ⟨writtenAs_rule normal owned, reads, fun ordinal written => ?_⟩
  have same := reads field.rule ordinal written
  rwa [inField_self owned] at same

end Tree

namespace Nest

/-- A field of text with a rule in which a quote, a backslash, an empty branch and both quantified
and unquantified groups occur. -/
def phrase : Field where
  name := "phrase"
  rule := "( 'it\\'s' ( @ Ident | ( ) ) * @ '\\\\' ) | @ @ "

/-- What the rule says. -/
def phraseTree : Tree :=
  .alternation
    [.sequence
      [.leaf (.literal "it's" phrase),
        .repetition (.alternation [.leaf (.captureKind (some .identifier) "Ident" phrase), .empty])
          .optionalOrMore,
        .leaf (.captureLiteral "\\" phrase)],
      .reference (.named "Nest") phrase]

theorem phrase_reads :
    phraseTree.Normal ∧ phraseTree.BelongsTo ⟨.standard, .named "Nest"⟩ phrase ∧
      (RuleToken.lex phrase 0 >>= Tree.build ⟨.standard, .named "Nest"⟩) = .ok phraseTree := by
  have normal : phraseTree.Normal := by
    simp [phraseTree, Tree.NormalNode]
  have owned : phraseTree.BelongsTo ⟨.standard, .named "Nest"⟩ phrase := by
    have known : KindTable.standard.kindOf? "Ident" = some (some .identifier) := by decide
    have plain : isPlainWord "Ident" = true := by decide
    simp [phraseTree, Tree.OwnNode, known, plain, phrase]
  have faithful := Tree.lex_build_written normal owned
  have same : phraseTree.rule = phrase.rule := by decide
  rw [same] at faithful
  exact ⟨normal, owned, faithful.2.2 0 faithful.1⟩

end Nest

end RecordGrammar
