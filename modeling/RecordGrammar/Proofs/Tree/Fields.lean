import RecordGrammar.Proofs.Registry.Compilation

namespace RecordGrammar

open RecordGrammar.Text

/-! Which fields the nodes of a shape's tree belong to.

Every leaf and every reference belongs to one of the fields, text is captured into no field that
holds records, and a reference belongs to a field whose own rule says so, because its two marks are
never taken from two rules. The tokens of all rules are one stream, so all of this is told of the
stream first. -/

/-- A field whose rule refers to a shape: two capture marks stand side by side. -/
def Field.Refers (field : Field) : Prop :=
  ∃ ordinal tokens, RuleToken.lex field ordinal = .ok tokens ∧
    RuleToken.mentionsReference tokens = true

namespace RuleToken

variable {field : Field} {fields : List Field} {ordinal : Nat} {tokens later : List RuleToken}

/-- Two capture marks of one rule, side by side. -/
def Doubled (sign token : RuleToken) : Prop :=
  sign.isMark "@" = true ∧ token.isMark "@" = true ∧ token.ordinal = sign.ordinal

/-- Tokens of the rules of some fields, in which only fields that refer to shapes have doubled
marks. -/
structure From (fields : List Field) (tokens : List RuleToken) : Prop where
  owned : ∀ token ∈ tokens, token.field ∈ fields
  doubled : ∀ before sign token after, tokens = before ++ sign :: token :: after →
    Doubled sign token → token.field.Refers

theorem From.left (all : From fields (tokens ++ later)) : From fields tokens where
  owned := fun token inside => all.owned token (List.mem_append_left later inside)
  doubled := fun before sign token after split marks =>
    all.doubled before sign token (after ++ later) (by rw [split]; simp) marks

theorem From.right (all : From fields (tokens ++ later)) : From fields later where
  owned := fun token inside => all.owned token (List.mem_append_right tokens inside)
  doubled := fun before sign token after split marks =>
    all.doubled (tokens ++ before) sign token after (by rw [split, List.append_assoc]) marks

theorem From.tail {token : RuleToken} (all : From fields (token :: later)) : From fields later :=
  From.right (show From fields ([token] ++ later) from all)

theorem lexFrom_owned {fuel offset : Nat} {chars : List Char}
    (lexed : lexFrom field ordinal fuel offset chars = .ok tokens) :
    ∀ token ∈ tokens, token.field = field ∧ token.ordinal = ordinal := by
  induction fuel generalizing offset chars tokens with
  | zero =>
      cases chars <;> cases lexed <;> simp
  | succ fuel ih =>
      cases chars with
      | nil =>
          cases lexed
          simp
      | cons c rest =>
          have emitted {width : Nat} {first : RuleToken}
              (owned : first.field = field ∧ first.ordinal = ordinal)
              (ran : (do
                let later ← lexFrom field ordinal fuel (offset + width) (rest.drop (width - 1))
                return first :: later) = Except.ok tokens) :
              ∀ token ∈ tokens, token.field = field ∧ token.ordinal = ordinal := by
            obtain ⟨later, lexedLater, ran⟩ := Tree.bind_eq_ok ran
            cases ran
            exact List.forall_mem_cons.mpr ⟨owned, ih lexedLater⟩
          simp only [lexFrom] at lexed
          split at lexed
          · exact ih lexed
          · repeat' split at lexed
            all_goals first
              | exact emitted ⟨rfl, rfl⟩ lexed
              | cases lexed

theorem mentionsReference_of_doubled {before after : List RuleToken} {sign token : RuleToken}
    (marks : Doubled sign token) : mentionsReference (before ++ sign :: token :: after) = true := by
  induction before with
  | nil =>
      simp only [List.nil_append, mentionsReference, marks.1, marks.2.1, Bool.and_self,
        Bool.true_or]
  | cons first rest ih =>
      cases rest <;>
        simp only [List.cons_append, List.nil_append, mentionsReference] at ih ⊢ <;>
        rw [ih, Bool.or_true]

theorem lexAll_owned (lexed : lexAll ordinal fields = .ok tokens) :
    ∀ token ∈ tokens, token.field ∈ fields ∧ ordinal ≤ token.ordinal := by
  induction fields generalizing ordinal tokens with
  | nil =>
      cases lexed
      simp
  | cons field rest ih =>
      obtain ⟨own, lexedOwn, lexed⟩ := Tree.bind_eq_ok lexed
      obtain ⟨later, lexedLater, lexed⟩ := Tree.bind_eq_ok lexed
      cases lexed
      intro token inside
      rcases List.mem_append.mp inside with first | last
      · obtain ⟨here, number⟩ := lexFrom_owned lexedOwn token first
        exact ⟨here ▸ List.mem_cons_self, Nat.le_of_eq number.symm⟩
      · obtain ⟨there, number⟩ := ih lexedLater token last
        exact ⟨List.mem_cons_of_mem _ there, Nat.le_of_succ_le number⟩

/-- Marks of different rules are not doubled, so doubled marks are found in the rule of one
field. -/
theorem lexAll_from (lexed : lexAll ordinal fields = .ok tokens) : From fields tokens := by
  refine ⟨fun token inside => (lexAll_owned lexed token inside).1, ?_⟩
  induction fields generalizing ordinal tokens with
  | nil =>
      cases lexed
      simp
  | cons field rest ih =>
      obtain ⟨own, lexedOwn, lexed⟩ := Tree.bind_eq_ok lexed
      obtain ⟨later, lexedLater, lexed⟩ := Tree.bind_eq_ok lexed
      cases lexed
      intro before sign token after split marks
      rcases List.append_eq_append_iff.mp split with ⟨more, rfl, here⟩ | ⟨more, rfl, here⟩
      · exact ih lexedLater more sign token after here marks
      · match more with
        | [] => exact ih lexedLater [] sign token after here.symm marks
        | [last] =>
            simp only [List.singleton_append, List.cons.injEq] at here
            obtain ⟨rfl, rfl⟩ := here
            have early := (lexFrom_owned lexedOwn sign (by simp)).2
            have late := (lexAll_owned lexedLater token (by simp)).2
            have same := marks.2.2
            omega
        | first :: second :: others =>
            simp only [List.cons_append, List.cons.injEq] at here
            obtain ⟨rfl, rfl, _⟩ := here
            rw [(lexFrom_owned lexedOwn token (by simp)).1]
            exact ⟨ordinal, _, lexedOwn, mentionsReference_of_doubled marks⟩

end RuleToken

namespace Tree

variable {context : RuleContext} {fields : List Field}

/-- A node that goes with the fields of a shape. -/
def FitsNode (fields : List Field) (owner : ShapeRef) : Tree → Prop
  | .leaf (.literal _ field) => field ∈ fields
  | .leaf (.captureLiteral _ field) => field ∈ fields ∧ field.kind ≠ .nested
  | .leaf (.captureKind _ _ field) => field ∈ fields ∧ field.kind ≠ .nested
  | .reference target field => field ∈ fields ∧ field.Refers ∧ target = field.element.getD owner
  | _ => True

abbrev Fits (fields : List Field) (owner : ShapeRef) (tree : Tree) : Prop :=
  tree.Every (FitsNode fields owner)

theorem structural_fits (fields : List Field) (owner : ShapeRef) :
    Structural (FitsNode fields owner) where
  empty := trivial
  sequence := fun _ => trivial
  alternation := fun _ _ _ => trivial
  repetition := fun _ _ => trivial

mutual
theorem ItemOf.fits {capturing : Bool} {tokens : List RuleToken} {tree : Tree} :
    ItemOf context capturing tokens tree → RuleToken.From fields tokens →
      tree.Fits fields context.owner
  | .literal _, all => .leaf (all.owned _ (by simp))
  | .captured _ scalar, all => .leaf ⟨all.owned _ (by simp), scalar⟩
  | .group _ inside, all => inside.fits all.tail
  | .capture marked same inside, all => inside.fits _ marked (by simpa using same) all

theorem CaptureOf.fits {tokens : List RuleToken} {tree : Tree} :
    CaptureOf context tokens tree → (sign : RuleToken) → sign.isMark "@" = true →
      (∀ token ∈ tokens.head?, token.ordinal = sign.ordinal) →
      RuleToken.From fields (sign :: tokens) → tree.Fits fields context.owner
  | .group _ inside, _, _, _, all => inside.fits all.tail.tail
  | .name _ _ scalar, _, _, _, all => .leaf ⟨all.owned _ (by simp), scalar⟩
  | .literal _ scalar, _, _, _, all => .leaf ⟨all.owned _ (by simp), scalar⟩
  | .reference marked, sign, first, same, all =>
      .reference ⟨all.owned _ (by simp),
        all.doubled [] sign _ [] rfl ⟨first, marked, same _ rfl⟩, rfl⟩

theorem GroupOf.fits {capturing : Bool} {tokens : List RuleToken} {tree : Tree} :
    GroupOf context capturing tokens tree → RuleToken.From fields tokens →
      tree.Fits fields context.owner
  | .closed inside _, all => .repetition trivial
      ((structural_fits fields context.owner).choice (fun _ => trivial) (inside.fits all.left))

theorem RowOf.fits {capturing : Bool} {tokens : List RuleToken} {trees : List Tree} :
    RowOf context capturing tokens trees → RuleToken.From fields tokens →
      ∀ tree ∈ trees, tree.Fits fields context.owner
  | .nil, _ => by simp
  | .cons first rest, all => List.forall_mem_cons.mpr ⟨first.fits all.left, rest.fits all.right⟩

theorem ChoiceOf.fits {capturing : Bool} {tokens : List RuleToken} {branches : List Tree} :
    ChoiceOf context capturing tokens branches → RuleToken.From fields tokens →
      ∀ branch ∈ branches, branch.Fits fields context.owner
  | .last members, all => List.forall_mem_singleton.mpr (.sequence trivial (members.fits all))
  | .more members _ rest, all =>
      List.forall_mem_cons.mpr ⟨.sequence trivial (members.fits all.left), rest.fits all.right.tail⟩
end

theorem build_fits {tokens : List RuleToken} {tree : Tree} (all : RuleToken.From fields tokens)
    (built : build context tokens = .ok tree) : tree.Fits fields context.owner := by
  obtain ⟨branches, derived, rfl⟩ := build_ok built
  have structural := structural_fits fields context.owner
  exact structural.simplify (structural.choice (fun _ => trivial) (derived.fits all))

end Tree

/-- The tree of a shape goes with its fields. -/
theorem Shape.ruleTree_fits {shape : Shape} {id : ShapeId} {kinds : KindTable} {root : Tree}
    (made : shape.ruleTree id kinds = .ok root) :
    root.Fits shape.fields (.shape id shape.name) := by
  obtain ⟨tokens, lexed, built⟩ := Tree.bind_eq_ok made
  exact Tree.build_fits (RuleToken.lexAll_from lexed) built

end RecordGrammar
