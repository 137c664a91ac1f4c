import RecordGrammar.Proofs.Tree.Nodes
import RecordGrammar.Tree.Builder

namespace RecordGrammar

/-! The grammar of rules, as derivations of trees from tokens, and that building a tree follows
every derivation. The trees are those before they are simplified. -/

namespace Tree

/-- The closing parenthesis of a group, with the quantifier after it if there is one. -/
inductive CloseOf : List RuleToken → Bound → Prop
  | once (closes : closer.isMark ")" = true) : CloseOf [closer] .once
  | repeated (closes : closer.isMark ")" = true) (quantified : quantifier.bound? = some bound) :
      CloseOf [closer, quantifier] bound

mutual
/-- One member of a sequence. Literals are captured inside of groups that are. -/
inductive ItemOf (context : RuleContext) : Bool → List RuleToken → Tree → Prop
  | literal (kind : token.kind = .literal) :
      ItemOf context false [token] (.leaf (.literal token.text token.field))
  | captured (kind : token.kind = .literal) (scalar : token.field.kind ≠ .nested) :
      ItemOf context true [token] (.leaf (.captureLiteral token.text token.field))
  | group (opens : opener.isMark "(" = true) (inside : GroupOf context capturing tokens tree) :
      ItemOf context capturing (opener :: tokens) tree
  | capture (marked : sign.isMark "@" = true) (same : token.ordinal = sign.ordinal)
      (inside : CaptureOf context (token :: tokens) tree) :
      ItemOf context capturing (sign :: token :: tokens) tree

/-- What may follow the sign of a capture. -/
inductive CaptureOf (context : RuleContext) : List RuleToken → Tree → Prop
  | group (opens : opener.isMark "(" = true) (inside : GroupOf context true tokens tree) :
      CaptureOf context (opener :: tokens) tree
  | name (kind : token.kind = .identifier) (known : context.kinds.kindOf? token.text = some found)
      (scalar : token.field.kind ≠ .nested) :
      CaptureOf context [token] (.leaf (.captureKind found token.text token.field))
  | literal (kind : token.kind = .literal) (scalar : token.field.kind ≠ .nested) :
      CaptureOf context [token] (.leaf (.captureLiteral token.text token.field))
  | reference (marked : token.isMark "@" = true) :
      CaptureOf context [token] (.reference (token.field.element.getD context.owner) token.field)

/-- A group after its opening parenthesis. -/
inductive GroupOf (context : RuleContext) : Bool → List RuleToken → Tree → Prop
  | closed (inside : ChoiceOf context capturing tokens branches) (closes : CloseOf closing bound) :
      GroupOf context capturing (tokens ++ closing) (.repetition (choice branches) bound)

/-- The members of a sequence. -/
inductive RowOf (context : RuleContext) : Bool → List RuleToken → List Tree → Prop
  | nil : RowOf context capturing [] []
  | cons (first : ItemOf context capturing tokens tree)
      (rest : RowOf context capturing later trees) :
      RowOf context capturing (tokens ++ later) (tree :: trees)

/-- The alternatives between bars, of which there is at least one. -/
inductive ChoiceOf (context : RuleContext) : Bool → List RuleToken → List Tree → Prop
  | last (row : RowOf context capturing tokens trees) :
      ChoiceOf context capturing tokens [.sequence trees]
  | more (row : RowOf context capturing tokens trees) (bars : bar.kind = .branch)
      (rest : ChoiceOf context capturing later branches) :
      ChoiceOf context capturing (tokens ++ bar :: later) (.sequence trees :: branches)
end

/-- Whether some tokens do not begin with a quantifier, which would belong to a group before
them. -/
def Unquantified (tokens : List RuleToken) : Prop :=
  ∀ next ∈ tokens.head?, next.bound? = none

section Steps

variable {context : RuleContext} {groups : List OpenGroup} {group : OpenGroup} {level : Level}
  {token next : RuleToken} {rest : List RuleToken} {tree : Tree}

theorem mark_of_isMark {mark : String} (marked : token.isMark mark = true) :
    token.kind = .operator ∧ token.text = mark := by
  simpa only [RuleToken.isMark, Bool.and_eq_true, beq_iff_eq] using marked

theorem buildFrom_literal (kind : token.kind = .literal)
    (checked : literalLeaf token (capturingIn groups) = .ok tree) :
    buildFrom context groups level (token :: rest) =
      buildFrom context groups (level.push tree) rest := by
  rw [buildFrom.eq_def]
  simp only [kind, checked]
  rfl

theorem buildFrom_bar (kind : token.kind = .branch) :
    buildFrom context groups level (token :: rest) =
      buildFrom context groups level.branch rest := by
  rw [buildFrom.eq_def]
  simp only [kind]

theorem buildFrom_open (opens : token.isMark "(" = true) :
    buildFrom context groups level (token :: rest) =
      buildFrom context (⟨token, capturingIn groups, level⟩ :: groups) {} rest := by
  obtain ⟨kind, text⟩ := mark_of_isMark opens
  rw [buildFrom.eq_def]
  simp only [kind, text, beq_self_eq_true, if_true]

theorem buildFrom_close (closes : CloseOf closing bound) (follows : Unquantified rest) :
    buildFrom context (group :: groups) level (closing ++ rest) =
      buildFrom context groups (group.outer.push (.repetition level.finish bound)) rest := by
  cases closes with
  | once closes =>
      obtain ⟨kind, text⟩ := mark_of_isMark closes
      cases rest with
      | nil =>
          rw [List.append_nil, buildFrom.eq_def]
          simp only [kind, text]
          rfl
      | cons next rest =>
          rw [List.singleton_append, buildFrom.eq_def]
          simp only [kind, text, follows next rfl]
          rfl
  | repeated closes quantified =>
      obtain ⟨kind, text⟩ := mark_of_isMark closes
      rw [List.cons_append, List.singleton_append, buildFrom.eq_def]
      simp only [kind, text, quantified]
      rfl

theorem buildFrom_capture_group (marked : token.isMark "@" = true)
    (same : next.ordinal = token.ordinal) (opens : next.isMark "(" = true) :
    buildFrom context groups level (token :: next :: rest) =
      buildFrom context (⟨next, true, level⟩ :: groups) {} rest := by
  obtain ⟨kind, text⟩ := mark_of_isMark marked
  obtain ⟨nextKind, nextText⟩ := mark_of_isMark opens
  rw [buildFrom.eq_def]
  simp only [kind, text, same, nextKind, nextText, ne_eq, not_true_eq_false, if_false]
  rfl

/-- What can be captured without a group is one leaf or reference. -/
theorem buildFrom_capture (marked : token.isMark "@" = true) (same : next.ordinal = token.ordinal)
    (captured : (next.kind = .identifier ∧ kindLeaf context next = .ok tree) ∨
      (next.kind = .literal ∧ literalLeaf next true = .ok tree) ∨
      (next.isMark "@" = true ∧ referenceTo context next = tree)) :
    buildFrom context groups level (token :: next :: rest) =
      buildFrom context groups (level.push tree) rest := by
  obtain ⟨kind, text⟩ := mark_of_isMark marked
  rw [buildFrom.eq_def]
  rcases captured with ⟨nextKind, leaf⟩ | ⟨nextKind, leaf⟩ | ⟨nextMarked, rfl⟩
  · simp only [kind, text, same, nextKind, leaf, ne_eq, not_true_eq_false, if_false]
    rfl
  · simp only [kind, text, same, nextKind, leaf, ne_eq, not_true_eq_false, if_false]
    rfl
  · obtain ⟨nextKind, nextText⟩ := mark_of_isMark nextMarked
    simp only [kind, text, same, nextKind, nextText, ne_eq, not_true_eq_false, if_false]
    rfl

theorem literalLeaf_plain :
    literalLeaf token false = .ok (.leaf (.literal token.text token.field)) := rfl

theorem checkText_scalar (scalar : token.field.kind ≠ .nested) : checkText token = .ok () := by
  simp only [checkText, scalar, if_false]

theorem literalLeaf_captured (scalar : token.field.kind ≠ .nested) :
    literalLeaf token true = .ok (.leaf (.captureLiteral token.text token.field)) := by
  simp only [literalLeaf, checkText_scalar scalar, if_true]
  rfl

theorem kindLeaf_known (known : context.kinds.kindOf? token.text = some found)
    (scalar : token.field.kind ≠ .nested) :
    kindLeaf context token = .ok (.leaf (.captureKind found token.text token.field)) := by
  simp only [kindLeaf, known, checkText_scalar scalar]
  rfl

end Steps

section Follow

variable {context : RuleContext} {capturing : Bool} {tokens rest : List RuleToken} {tree : Tree}

theorem bound?_of_kind {token : RuleToken} (kind : token.kind = sort) (other : sort ≠ .operator) :
    token.bound? = none := by
  simp only [RuleToken.bound?, kind, other, if_false]

theorem bound?_of_isMark {token : RuleToken} (marked : token.isMark mark = true)
    (other : Bound.ofMark? mark = none) : token.bound? = none := by
  obtain ⟨kind, text⟩ := mark_of_isMark marked
  simp only [RuleToken.bound?, kind, text, other, if_true]

theorem Unquantified.cons {token : RuleToken} (unbound : token.bound? = none)
    (rest : List RuleToken) :
    Unquantified (token :: rest) := by
  intro next head
  cases head
  exact unbound

theorem ItemOf.unquantified (derived : ItemOf context capturing tokens tree)
    (rest : List RuleToken) :
    Unquantified (tokens ++ rest) := by
  cases derived with
  | literal kind => exact .cons (bound?_of_kind kind (by decide)) _
  | captured kind scalar => exact .cons (bound?_of_kind kind (by decide)) _
  | group opens inside => exact .cons (bound?_of_isMark opens rfl) _
  | capture marked same inside => exact .cons (bound?_of_isMark marked rfl) _

theorem CloseOf.unquantified (closes : CloseOf closing bound) (rest : List RuleToken) :
    Unquantified (closing ++ rest) := by
  cases closes with
  | once closes => exact .cons (bound?_of_isMark closes rfl) _
  | repeated closes quantified => exact .cons (bound?_of_isMark closes rfl) _

theorem RowOf.unquantified (derived : RowOf context capturing tokens trees)
    (follows : Unquantified rest) :
    Unquantified (tokens ++ rest) := by
  cases derived with
  | nil => exact follows
  | cons first later =>
      rw [List.append_assoc]
      exact first.unquantified _

end Follow

theorem foldl_push (trees : List Tree) (level : Level) :
    trees.foldl Level.push level = { level with members := trees.reverse ++ level.members } := by
  induction trees generalizing level with
  | nil => rfl
  | cons tree trees ih =>
      rw [List.foldl_cons, ih]
      simp [Level.push]

theorem finish_eq_choice (level : Level) :
    level.finish = choice (level.branches.reverse ++ [.sequence level.members.reverse]) := by
  obtain ⟨branches, members⟩ := level
  cases branches with
  | nil => rfl
  | cons branch branches =>
      rw [choice_eq_alternation (by simp)]
      simp only [Level.finish, List.reverse_cons]

mutual
/-- Building follows a derivation to its end and adds the tree that it derives. -/
theorem ItemOf.builds {capturing : Bool} {tokens : List RuleToken} {tree : Tree} :
    ItemOf context capturing tokens tree → (groups : List OpenGroup) → (level : Level) →
      (rest : List RuleToken) → capturingIn groups = capturing → Unquantified rest →
      buildFrom context groups level (tokens ++ rest) =
        buildFrom context groups (level.push tree) rest
  | .literal kind, groups, level, rest, here, _ => by
      exact buildFrom_literal kind (by rw [here]; exact literalLeaf_plain)
  | .captured kind scalar, groups, level, rest, here, _ => by
      exact buildFrom_literal kind (by rw [here]; exact literalLeaf_captured scalar)
  | .group opens inside, groups, level, rest, here, follows => by
      rw [List.cons_append, buildFrom_open opens, here]
      exact inside.builds _ level groups rest follows
  | .capture marked same inside, groups, level, rest, _, follows => by
      exact inside.builds _ marked (by intro next head; cases head; exact same) groups level
        rest follows

theorem CaptureOf.builds {tokens : List RuleToken} {tree : Tree} :
    CaptureOf context tokens tree → (sign : RuleToken) → sign.isMark "@" = true →
      (∀ next ∈ tokens.head?, next.ordinal = sign.ordinal) → (groups : List OpenGroup) →
      (level : Level) → (rest : List RuleToken) → Unquantified rest →
      buildFrom context groups level (sign :: (tokens ++ rest)) =
        buildFrom context groups (level.push tree) rest
  | .group opens inside, sign, marked, same, groups, level, rest, follows => by
      rw [List.cons_append, buildFrom_capture_group marked (same _ rfl) opens]
      exact inside.builds _ level groups rest follows
  | .name kind known scalar, sign, marked, same, groups, level, rest, _ => by
      exact buildFrom_capture marked (same _ rfl) (.inl ⟨kind, kindLeaf_known known scalar⟩)
  | .literal kind scalar, sign, marked, same, groups, level, rest, _ => by
      exact buildFrom_capture marked (same _ rfl) (.inr (.inl ⟨kind, literalLeaf_captured scalar⟩))
  | .reference again, sign, marked, same, groups, level, rest, _ => by
      exact buildFrom_capture marked (same _ rfl) (.inr (.inr ⟨again, rfl⟩))

theorem GroupOf.builds {capturing : Bool} {tokens : List RuleToken} {tree : Tree} :
    GroupOf context capturing tokens tree → (opener : RuleToken) → (outer : Level) →
      (groups : List OpenGroup) → (rest : List RuleToken) → Unquantified rest →
      buildFrom context (⟨opener, capturing, outer⟩ :: groups) {} (tokens ++ rest) =
        buildFrom context groups (outer.push tree) rest
  | .closed inside closes, opener, outer, groups, rest, follows => by
      rw [List.append_assoc]
      obtain ⟨final, ran, finished⟩ := inside.builds (⟨opener, _, outer⟩ :: groups) {} _ rfl rfl
        (closes.unquantified rest)
      rw [ran, buildFrom_close closes follows, finished]
      rfl

theorem RowOf.builds {capturing : Bool} {tokens : List RuleToken} {trees : List Tree} :
    RowOf context capturing tokens trees → (groups : List OpenGroup) → (level : Level) →
      (rest : List RuleToken) → capturingIn groups = capturing → Unquantified rest →
      buildFrom context groups level (tokens ++ rest) =
        buildFrom context groups (trees.foldl Level.push level) rest
  | .nil, groups, level, rest, _, _ => by
      rfl
  | .cons first later, groups, level, rest, here, follows => by
      -- A quantifier after the first member would be taken for its own; the next member has none.
      rw [List.append_assoc, first.builds groups level _ here (later.unquantified follows),
        later.builds groups _ rest here follows]
      rfl

theorem ChoiceOf.builds {capturing : Bool} {tokens : List RuleToken} {branches : List Tree} :
    ChoiceOf context capturing tokens branches → (groups : List OpenGroup) → (level : Level) →
      (rest : List RuleToken) → capturingIn groups = capturing → level.members = [] →
      Unquantified rest → ∃ final, buildFrom context groups level (tokens ++ rest) =
        buildFrom context groups final rest ∧
        final.finish = choice (level.branches.reverse ++ branches)
  | .last row, groups, level, rest, here, starts, follows => by
      refine ⟨_, row.builds groups level rest here follows, ?_⟩
      rw [finish_eq_choice, foldl_push]
      simp [starts]
  | .more row bars later, groups, level, rest, here, starts, follows => by
      have unbound := bound?_of_kind bars (by decide)
      rw [List.append_assoc, List.cons_append, row.builds groups level _ here (.cons unbound _),
        buildFrom_bar bars, foldl_push]
      obtain ⟨final, ran, finished⟩ := later.builds groups (Level.branch _) rest here rfl follows
      refine ⟨final, ran, ?_⟩
      rw [finished]
      simp [Level.branch, starts]
end

/-- Rules that derive some alternatives are built into them. -/
theorem ChoiceOf.buildFrom_eq (derived : ChoiceOf context false tokens branches) :
    buildFrom context [] {} tokens = .ok (choice branches) := by
  obtain ⟨final, ran, finished⟩ := derived.builds [] {} [] rfl rfl (by intro next head; cases head)
  rw [List.append_nil] at ran
  rw [ran, buildFrom]
  simp only [finished]
  rfl

theorem build_eq_map (context : RuleContext) (tokens : List RuleToken) :
    build context tokens = (buildFrom context [] {} tokens).map simplify := by
  cases tokens with
  | nil => rfl
  | cons token rest => rfl

end Tree

end RecordGrammar
