import Mathlib
import RecordGrammar.Proofs.Tree.Accepted

namespace RecordGrammar

/-! Building a rule either follows its derivation, of which there is only one, or complains about
one of the tokens of the rule.

A complaint is about the token at hand, the one after it, or the parenthesis that opened a group.
The last of these stands on the stack while its group is open, and came from the rule as well. -/

namespace Tree

section Complaints

variable {context : RuleContext} {groups : List OpenGroup} {level : Level} {capturing : Bool}
  {token : RuleToken} {tokens : List RuleToken} {error : RuleError}

/-- An error is a complaint about one of some tokens. -/
def ComplainsOf (tokens : List RuleToken) (error : RuleError) : Prop :=
  ∃ token ∈ tokens, ∃ problem, error = token.complain problem

theorem ComplainsOf.mono {later : List RuleToken} (complains : ComplainsOf tokens error)
    (inside : tokens ⊆ later) : ComplainsOf later error := by
  obtain ⟨token, member, problem, same⟩ := complains
  exact ⟨token, inside member, problem, same⟩

theorem ComplainsOf.of_eq {problem : RuleProblem} (member : token ∈ tokens)
    (refused : (.error (token.complain problem) : Except RuleError Tree) = .error error) :
    ComplainsOf tokens error := by
  cases refused
  exact ⟨token, member, problem, rfl⟩

theorem bind_eq_error {step : Except ε α} {next : α → Except ε β}
    (refused : (step >>= next) = .error reason) :
    step = .error reason ∨ ∃ value, step = .ok value ∧ next value = .error reason := by
  cases step with
  | error problem =>
      cases refused
      exact .inl rfl
  | ok value => exact .inr ⟨value, rfl, refused⟩

theorem checkText_error (refused : checkText token = .error error) : ComplainsOf [token] error := by
  unfold checkText at refused
  split at refused
  · cases refused
    exact ⟨token, by simp, _, rfl⟩
  · cases refused

theorem literalLeaf_error (refused : literalLeaf token capturing = .error error) :
    ComplainsOf [token] error := by
  cases capturing with
  | false => cases refused
  | true =>
      rcases bind_eq_error refused with unchecked | ⟨_, _, made⟩
      · exact checkText_error unchecked
      · cases made

theorem kindLeaf_error (refused : kindLeaf context token = .error error) :
    ComplainsOf [token] error := by
  unfold kindLeaf at refused
  split at refused
  · cases refused
    exact ⟨token, by simp, _, rfl⟩
  · rcases bind_eq_error refused with unchecked | ⟨_, _, made⟩
    · exact checkText_error unchecked
    · cases made

/-- Building complains about the tokens that it is given, or about one that opened a group
before. -/
theorem buildFrom_error (refused : buildFrom context groups level tokens = .error error) :
    ComplainsOf (tokens ++ groups.map (·.opener)) error := by
  fun_induction buildFrom context groups level tokens with
  | case1 level => cases refused
  | case3 groups level token rest kind ih =>
      rcases bind_eq_error refused with unmade | ⟨leaf, _, refused⟩
      · exact (literalLeaf_error unmade).mono (by grind)
      · exact (ih leaf refused).mono (by grind)
  | case4 groups level token rest kind ih => exact (ih refused).mono (by grind)
  -- The parenthesis moves from the tokens to the groups.
  | case6 groups level token rest kind opens ih => exact (ih refused).mono (by grind)
  | case8 level token kind _ closes group groups close ih => exact (ih refused).mono (by grind)
  | case9 level token kind _ closes group groups close next after bound quantified ih =>
      exact (ih refused).mono (by grind)
  | case10 level token kind _ closes group groups close next after _ ih =>
      exact (ih refused).mono (by grind)
  | case13 groups level token kind _ _ marked next after same nextKind ih =>
      rcases bind_eq_error refused with unmade | ⟨leaf, _, refused⟩
      · exact (kindLeaf_error unmade).mono (by grind)
      · exact (ih leaf refused).mono (by grind)
  | case14 groups level token kind _ _ marked next after same nextKind ih =>
      rcases bind_eq_error refused with unmade | ⟨leaf, _, refused⟩
      · exact (literalLeaf_error unmade).mono (by grind)
      · exact (ih leaf refused).mono (by grind)
  | case15 groups level token kind _ _ marked next after same nextKind opens ih =>
      exact (ih refused).mono (by grind)
  | case16 groups level token kind _ _ marked next after same nextKind _ again ih =>
      exact (ih refused).mono (by grind)
  -- What is left is refused at once, over the token at hand, the next one, or an open parenthesis.
  | _ => exact .of_eq (by simp) refused

end Complaints

theorem ChoiceOf.sequences {capturing : Bool} {tokens : List RuleToken} {branches : List Tree}
    (derived : ChoiceOf context capturing tokens branches) :
    ∀ branch ∈ branches, ∃ members, branch = .sequence members := by
  induction branches generalizing capturing tokens with
  | nil => simp
  | cons branch rest ih =>
      cases derived with
      | last _ => exact List.forall_mem_singleton.mpr ⟨_, rfl⟩
      | more _ _ later => exact List.forall_mem_cons.mpr ⟨⟨_, rfl⟩, ih later⟩

/-- Alternatives are told from their tree, for none of them is an alternation by itself. -/
theorem ChoiceOf.eq_of_choice {branches others : List Tree}
    (derived : ChoiceOf context capturing tokens branches)
    (also : ChoiceOf context capturing later others) (same : choice branches = choice others) :
    branches = others := by
  have sole (branch : Tree) (held : branch ∈ branches ∨ branch ∈ others) (trees : List Tree) :
      branch ≠ .alternation trees := by
    obtain ⟨members, rfl⟩ := held.elim (derived.sequences branch) (also.sequences branch)
    simp
  match branches, others with
  | [branch], [other] => exact congrArg ([·]) same
  | [branch], first :: second :: rest => exact absurd same (sole branch (.inl (by simp)) _)
  | first :: second :: rest, [other] => exact absurd same.symm (sole other (.inr (by simp)) _)
  | _ :: _ :: _, _ :: _ :: _ => exact Tree.alternation.inj same
  | [], _ => exact absurd rfl derived.ne_nil
  | _, [] => exact absurd rfl also.ne_nil

theorem ChoiceOf.unique {branches others : List Tree}
    (derived : ChoiceOf context false tokens branches)
    (also : ChoiceOf context false tokens others) : branches = others := by
  have same := derived.buildFrom_eq.symm.trans also.buildFrom_eq
  exact derived.eq_of_choice also (Except.ok.inj same)

theorem build_error {context : RuleContext} {tokens : List RuleToken} {error : RuleError}
    (refused : build context tokens = .error error) : ComplainsOf tokens error := by
  rw [build_eq_map] at refused
  cases raw : buildFrom context [] {} tokens with
  | error problem =>
      rw [raw] at refused
      cases refused
      simpa using buildFrom_error raw
  | ok tree =>
      rw [raw] at refused
      cases refused

/-- The grammar decides what is built from a rule. There is at most one way to derive alternatives
from its tokens, and then their tree is built and simplified. If there is none, building fails, and
the complaint names the rule, the field and the offset of one of the tokens. -/
theorem build_decides (context : RuleContext) (tokens : List RuleToken) :
    (∀ tree, build context tokens = .ok tree ↔
      ∃ branches, ChoiceOf context false tokens branches ∧ (choice branches).simplify = tree) ∧
    (∀ branches others, ChoiceOf context false tokens branches →
      ChoiceOf context false tokens others → branches = others) ∧
    ((¬ ∃ branches, ChoiceOf context false tokens branches) →
      ∃ error, build context tokens = .error error ∧
        ∃ token ∈ tokens, error.rule = token.field.rule ∧ error.field = token.field.name ∧
          error.offset = some (token.offset : Int)) := by
  have accepted (tree : Tree) : build context tokens = .ok tree ↔
      ∃ branches, ChoiceOf context false tokens branches ∧ (choice branches).simplify = tree := by
    rw [build_eq_map]
    constructor
    · intro built
      cases raw : buildFrom context [] {} tokens with
      | error problem => simp [raw, Except.map] at built
      | ok derived =>
          obtain ⟨branches, derives, rfl⟩ := buildFrom_ok_iff.mp raw
          rw [raw] at built
          exact ⟨branches, derives, Except.ok.inj built⟩
    · rintro ⟨branches, derives, rfl⟩
      rw [derives.buildFrom_eq]
      rfl
  refine ⟨accepted, fun _ _ derived also => derived.unique also, ?_⟩
  intro underivable
  cases built : build context tokens with
  | ok tree =>
      obtain ⟨branches, derived, _⟩ := (accepted tree).mp built
      exact absurd ⟨branches, derived⟩ underivable
  | error error =>
      obtain ⟨token, member, problem, rfl⟩ := build_error built
      exact ⟨_, rfl, token, member, rfl, rfl, rfl⟩

end Tree

namespace Nest

def opening : Field where
  name := "opening"
  rule := "( @ 'x' |"

def closing : Field where
  name := "closing"
  rule := "@ Ident ) *"

/-- The tokens of two fields of which one opens a group and the other closes it. -/
def spread : List RuleToken :=
  [⟨"(", .operator, 0, opening, 0⟩, ⟨"@", .operator, 2, opening, 0⟩, ⟨"x", .literal, 4, opening, 0⟩,
    ⟨"|", .branch, 8, opening, 0⟩, ⟨"@", .operator, 0, closing, 1⟩,
    ⟨"Ident", .identifier, 2, closing, 1⟩, ⟨")", .operator, 8, closing, 1⟩,
    ⟨"*", .operator, 10, closing, 1⟩]

def spreadTree : Tree :=
  .repetition
    (.alternation
      [.leaf (.captureLiteral "x" opening),
        .leaf (.captureKind (some .identifier) "Ident" closing)])
    .optionalOrMore

/-- Each capture belongs to the field in whose rule it stands. -/
theorem spread_derives :
    RuleToken.lexAll 0 [opening, closing] = .ok spread ∧
      ∃ branches, Tree.ChoiceOf ⟨.standard, .named "Nest"⟩ false spread branches ∧
        (Tree.choice branches).simplify = spreadTree := by
  have built : Tree.build ⟨.standard, .named "Nest"⟩ spread = .ok spreadTree := by cbv
  have decided := Tree.build_decides ⟨.standard, .named "Nest"⟩ spread
  exact ⟨by cbv, (decided.1 spreadTree).mp built⟩

end Nest

end RecordGrammar
