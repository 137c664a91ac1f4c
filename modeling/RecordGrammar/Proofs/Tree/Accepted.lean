import RecordGrammar.Proofs.Tree.RuleGrammar

namespace RecordGrammar

/-! Building accepts nothing but what the grammar of rules derives.

In the middle of a rule the derivation is not complete yet: some members of a sequence have been
read, and some groups are open. What building still has to find there is the rest of the
alternatives at hand and a closing parenthesis, and the same again for every open group. -/

namespace Tree

/-- The rest of some alternatives, of which a level has been read already. -/
inductive RestOf (context : RuleContext) (capturing : Bool) : Level → List RuleToken → Level → Prop
  | row (members : RowOf context capturing tokens trees) :
      RestOf context capturing level tokens (trees.foldl Level.push level)
  | bar (members : RowOf context capturing tokens trees) (bars : bar.kind = .branch)
      (rest : RestOf context capturing (trees.foldl Level.push level).branch later final) :
      RestOf context capturing level (tokens ++ bar :: later) final

/-- The rest of a rule inside of some open groups. -/
inductive CompletionOf (context : RuleContext) :
    List OpenGroup → Level → List RuleToken → Tree → Prop
  | done (rest : RestOf context false level tokens final) :
      CompletionOf context [] level tokens final.finish
  | close (rest : RestOf context group.capturing level tokens final)
      (closes : CloseOf closing bound)
      (outside : CompletionOf context groups
        (group.outer.push (.repetition final.finish bound)) later tree) :
      CompletionOf context (group :: groups) level (tokens ++ (closing ++ later)) tree

section Completion

variable {context : RuleContext} {capturing : Bool} {groups : List OpenGroup} {level final : Level}
  {tokens later : List RuleToken} {tree : Tree}

theorem RestOf.item (first : ItemOf context capturing tokens member)
    (rest : RestOf context capturing (level.push member) later final) :
    RestOf context capturing level (tokens ++ later) final := by
  cases rest with
  | row members => exact .row (.cons first members)
  | bar members bars rest =>
      rw [← List.append_assoc]
      exact .bar (.cons first members) bars rest

theorem CompletionOf.item (first : ItemOf context (capturingIn groups) tokens member)
    (rest : CompletionOf context groups (level.push member) later tree) :
    CompletionOf context groups level (tokens ++ later) tree := by
  cases rest with
  | done rest => exact .done (rest.item first)
  | close rest closes outside =>
      rw [← List.append_assoc]
      exact .close (rest.item first) closes outside

theorem CompletionOf.bar (bars : token.kind = .branch)
    (rest : CompletionOf context groups level.branch later tree) :
    CompletionOf context groups level (token :: later) tree := by
  cases rest with
  | done rest => exact .done (.bar .nil bars rest)
  | close rest closes outside => exact .close (.bar .nil bars rest) closes outside

/-- The rest of alternatives of which nothing has been read is all of them. -/
theorem RestOf.choiceOf (rest : RestOf context capturing level tokens final)
    (starts : level.members = []) :
    ∃ branches, ChoiceOf context capturing tokens branches ∧
      final.finish = choice (level.branches.reverse ++ branches) := by
  induction rest with
  | row members =>
      refine ⟨_, .last members, ?_⟩
      rw [finish_eq_choice, foldl_push]
      simp [starts]
  | bar members bars rest ih =>
      obtain ⟨branches, derived, finished⟩ := ih rfl
      refine ⟨_, .more members bars derived, ?_⟩
      rw [finished, foldl_push]
      simp [Level.branch, starts]

/-- The completion of a group that has just been opened begins with the group. -/
theorem CompletionOf.groupOf
    (completion : CompletionOf context (⟨opener, capturing, level⟩ :: groups) {} tokens tree) :
    ∃ inside later member, tokens = inside ++ later ∧ GroupOf context capturing inside member ∧
      CompletionOf context groups (level.push member) later tree := by
  cases completion with
  | close rest closes outside =>
      obtain ⟨branches, derived, finished⟩ := rest.choiceOf rfl
      rw [finished] at outside
      rw [← List.append_assoc]
      exact ⟨_, _, _, rfl, .closed derived closes, outside⟩

theorem bind_eq_ok {step : Except ε α} {next : α → Except ε β}
    (ran : (step >>= next) = .ok result) :
    ∃ value, step = .ok value ∧ next value = .ok result := by
  cases step with
  | error problem => cases ran
  | ok value => exact ⟨value, rfl, ran⟩

theorem checkText_ok (checked : checkText token = .ok done) : token.field.kind ≠ .nested := by
  intro nested
  simp [checkText, nested] at checked

theorem literalLeaf_captured_ok (made : literalLeaf token true = .ok tree) :
    token.field.kind ≠ .nested ∧ .leaf (.captureLiteral token.text token.field) = tree := by
  obtain ⟨done, checked, made⟩ := bind_eq_ok made
  cases made
  exact ⟨checkText_ok checked, rfl⟩

theorem ItemOf.of_literalLeaf (kind : token.kind = .literal)
    (made : literalLeaf token capturing = .ok tree) :
    ItemOf context capturing [token] tree := by
  cases capturing with
  | false =>
      cases made
      exact .literal kind
  | true =>
      obtain ⟨scalar, rfl⟩ := literalLeaf_captured_ok made
      exact .captured kind scalar

theorem CaptureOf.of_kindLeaf (kind : token.kind = .identifier)
    (made : kindLeaf context token = .ok tree) :
    CaptureOf context [token] tree := by
  cases known : context.kinds.kindOf? token.text with
  | none =>
      simp only [kindLeaf, known] at made
      cases made
  | some found =>
      simp only [kindLeaf, known] at made
      obtain ⟨done, checked, made⟩ := bind_eq_ok made
      cases made
      exact .name kind known (checkText_ok checked)

end Completion

theorem ChoiceOf.ne_nil (derived : ChoiceOf context capturing tokens branches) : branches ≠ [] := by
  cases derived <;> simp

theorem isMark_of_text {token : RuleToken} (kind : token.kind = .operator)
    (text : (token.text == mark) = true) :
    token.isMark mark = true := by
  simp only [RuleToken.isMark, kind, text, beq_self_eq_true, Bool.and_self]

/-- What building accepts completes what it has read. -/
theorem buildFrom_completionOf (built : buildFrom context groups level tokens = .ok tree) :
    CompletionOf context groups level tokens tree := by
  -- The cases that are left out end with a complaint, so nothing is built there.
  fun_induction buildFrom context groups level tokens with
  | case1 level =>
      cases built
      exact .done (.row .nil)
  | case3 groups level token rest kind ih =>
      obtain ⟨leaf, made, built⟩ := bind_eq_ok built
      exact (ih leaf built).item (.of_literalLeaf kind made)
  | case4 groups level token rest kind ih => exact (ih built).bar kind
  | case6 groups level token rest kind opens ih =>
      -- A parenthesis opens a group, which the completion inside of it begins with.
      obtain ⟨inside, later, member, rfl, derived, completion⟩ := (ih built).groupOf
      exact completion.item (.group (isMark_of_text kind opens) derived)
  -- A closing parenthesis stands at the end, before a quantifier, or before something else.
  | case8 level token kind _ closes group groups close ih =>
      exact .close (.row .nil) (.once (isMark_of_text kind closes)) (ih built)
  | case9 level token kind _ closes group groups close next after bound quantified ih =>
      exact .close (.row .nil) (.repeated (isMark_of_text kind closes) quantified) (ih built)
  | case10 level token kind _ closes group groups close next after _ ih =>
      exact .close (.row .nil) (.once (isMark_of_text kind closes)) (ih built)
  -- After the sign of a capture there is a name, a literal, a group or a second sign.
  | case13 groups level token kind _ _ marked next after same nextKind ih =>
      obtain ⟨leaf, made, built⟩ := bind_eq_ok built
      exact (ih leaf built).item
        (.capture (isMark_of_text kind marked) (Decidable.not_not.mp same)
          (.of_kindLeaf nextKind made))
  | case14 groups level token kind _ _ marked next after same nextKind ih =>
      obtain ⟨leaf, made, built⟩ := bind_eq_ok built
      obtain ⟨scalar, rfl⟩ := literalLeaf_captured_ok made
      exact (ih _ built).item
        (.capture (isMark_of_text kind marked) (Decidable.not_not.mp same)
          (.literal nextKind scalar))
  | case15 groups level token kind _ _ marked next after same nextKind opens ih =>
      obtain ⟨inside, later, member, rfl, derived, completion⟩ := (ih built).groupOf
      exact completion.item (.capture (isMark_of_text kind marked) (Decidable.not_not.mp same)
        (.group (isMark_of_text nextKind opens) derived))
  | case16 groups level token kind _ _ marked next after same nextKind _ again ih =>
      exact (ih built).item (.capture (isMark_of_text kind marked) (Decidable.not_not.mp same)
        (.reference (isMark_of_text nextKind again)))
  | _ => cases built

/-- A rule is built into a tree if and only if the grammar derives it. -/
theorem buildFrom_ok_iff :
    buildFrom context [] {} tokens = .ok tree ↔
      ∃ branches, ChoiceOf context false tokens branches ∧ choice branches = tree := by
  constructor
  · intro built
    cases buildFrom_completionOf built with
    | done rest =>
        obtain ⟨branches, derived, finished⟩ := rest.choiceOf rfl
        exact ⟨branches, derived, finished.symm⟩
  · rintro ⟨branches, derived, rfl⟩
    exact derived.buildFrom_eq

theorem build_ok (built : build context tokens = .ok tree) :
    ∃ branches, ChoiceOf context false tokens branches ∧ (choice branches).simplify = tree := by
  rw [build_eq_map] at built
  cases raw : buildFrom context [] {} tokens with
  | error problem =>
      rw [raw] at built
      cases built
  | ok derived =>
      obtain ⟨branches, derives, rfl⟩ := buildFrom_ok_iff.mp raw
      rw [raw] at built
      exact ⟨branches, derives, Except.ok.inj built⟩

/-- Every alternation in a tree has at least two branches. -/
abbrev Plural (tree : Tree) : Prop :=
  tree.Every fun node => ∀ branches, node = .alternation branches → 2 ≤ branches.length

theorem structural_plural :
    Structural fun node => ∀ branches, node = .alternation branches → 2 ≤ branches.length where
  empty := by simp
  sequence := by simp
  alternation := by simp
  repetition := by simp

mutual
/-- An alternation is derived only where there is a bar. -/
theorem ItemOf.plural {capturing : Bool} {tokens : List RuleToken} {tree : Tree} :
    ItemOf context capturing tokens tree → tree.Plural
  | .literal _ => .leaf (by simp)
  | .captured _ _ => .leaf (by simp)
  | .group _ inside => inside.plural
  | .capture _ _ inside => inside.plural

theorem CaptureOf.plural {tokens : List RuleToken} {tree : Tree} :
    CaptureOf context tokens tree → tree.Plural
  | .group _ inside => inside.plural
  | .name _ _ _ => .leaf (by simp)
  | .literal _ _ => .leaf (by simp)
  | .reference _ => .reference (by simp)

theorem GroupOf.plural {capturing : Bool} {tokens : List RuleToken} {tree : Tree} :
    GroupOf context capturing tokens tree → tree.Plural
  | .closed inside _ => .repetition (by simp)
      (structural_plural.choice (fun none => absurd none inside.ne_nil) inside.plural)

theorem RowOf.plural {capturing : Bool} {tokens : List RuleToken} {trees : List Tree} :
    RowOf context capturing tokens trees → ∀ tree ∈ trees, tree.Plural
  | .nil => by simp
  | .cons first rest => List.forall_mem_cons.mpr ⟨first.plural, rest.plural⟩

theorem ChoiceOf.plural {capturing : Bool} {tokens : List RuleToken} {branches : List Tree} :
    ChoiceOf context capturing tokens branches → ∀ branch ∈ branches, branch.Plural
  | .last members => List.forall_mem_singleton.mpr (.sequence (by simp) members.plural)
  | .more members _ rest =>
      List.forall_mem_cons.mpr ⟨.sequence (by simp) members.plural, rest.plural⟩
end

theorem ChoiceOf.choice_plural (derived : ChoiceOf context capturing tokens branches) :
    (choice branches).Plural :=
  structural_plural.choice (fun none => absurd none derived.ne_nil) derived.plural

theorem buildFrom_plural (built : buildFrom context [] {} tokens = .ok tree) : tree.Plural := by
  obtain ⟨branches, derived, rfl⟩ := buildFrom_ok_iff.mp built
  exact derived.choice_plural

theorem build_plural (built : build context tokens = .ok tree) : tree.Plural := by
  obtain ⟨branches, derived, rfl⟩ := build_ok built
  exact structural_plural.simplify derived.choice_plural

end Tree

end RecordGrammar
