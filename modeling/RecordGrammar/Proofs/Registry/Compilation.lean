import RecordGrammar.Proofs.Match.Refusal
import RecordGrammar.Proofs.Registry.Registration
import RecordGrammar.Proofs.Tree.Accepted

namespace RecordGrammar

/-! What becomes of a shape when its rules are compiled.

A pending shape has one tree that its rules make, with the names that they may capture tokens by,
and compiling gives it just that tree or the complaint about the rules. The order of the names makes
no difference. -/

namespace KindTable

variable {table other : KindTable}

theorem kindOf?_eq_some_iff (distinct : table.Distinct) {name : String} {kind : Option TokenKind} :
    table.kindOf? name = some kind ↔ (name, kind) ∈ table := by
  induction table with
  | nil => simp [kindOf?]
  | cons entry rest ih =>
      obtain ⟨fresh, later⟩ :=
        List.nodup_cons.mp (show ((entry :: rest).map (·.1)).Nodup from distinct)
      have ih := ih later
      simp only [kindOf?, List.find?_cons] at ih ⊢
      by_cases here : entry.1 = name
      · have absent : (name, kind) ∉ rest := by
          intro held
          exact fresh (List.mem_map.mpr ⟨_, held, here.symm⟩)
        simp only [here, beq_self_eq_true, Option.map_some, Option.some.injEq, List.mem_cons,
          absent, or_false]
        constructor
        · rintro rfl
          exact Prod.ext here.symm rfl
        · intro same
          rw [← same]
      · have apart : (name, kind) ≠ entry := fun same => here (same ▸ rfl)
        simp only [beq_eq_false_iff_ne.mpr here, ih, List.mem_cons, apart, false_or]

theorem kindOf?_perm (perm : table.Perm other) (distinct : table.Distinct) (name : String) :
    table.kindOf? name = other.kindOf? name := by
  have also : other.Distinct := (perm.map _).nodup distinct
  refine Option.ext fun kind => ?_
  rw [kindOf?_eq_some_iff distinct, kindOf?_eq_some_iff also, perm.mem_iff]

theorem pairwise_sorted (table : KindTable) : (table.sorted.map (·.1)).Pairwise (· ≤ ·) := by
  rw [List.pairwise_map]
  refine (List.pairwise_mergeSort ?_ ?_ table).imp fun below => of_decide_eq_true below
  · intro first second third below further
    exact decide_eq_true (String.le_trans (of_decide_eq_true below) (of_decide_eq_true further))
  · intro first second
    simpa using String.le_total first.1 second.1

theorem sorted_perm (perm : table.Perm other) :
    table.sorted.map (·.1) = other.sorted.map (·.1) := by
  refine List.Perm.eq_of_pairwise (fun _ _ _ _ => String.le_antisymm) (pairwise_sorted table)
    (pairwise_sorted other) ?_
  have sorts (table : KindTable) : table.sorted.Perm table := List.mergeSort_perm table _
  exact (((sorts table).trans perm).trans (sorts other).symm).map _

end KindTable

namespace Tree

/-- Building looks at the names to capture tokens by only where it makes a leaf of one. -/
theorem buildFrom_congr (context other : RuleContext) (owner : context.owner = other.owner)
    (leaves : ∀ token, kindLeaf context token = kindLeaf other token) (groups : List OpenGroup)
    (level : Level) (tokens : List RuleToken) :
    buildFrom context groups level tokens = buildFrom other groups level tokens := by
  have references (token : RuleToken) : referenceTo context token = referenceTo other token := by
    simp only [referenceTo, owner]
  fun_induction buildFrom context groups level tokens with
  | case1 | case2 => rfl
  | _ =>
      -- The conditions of the case take both sides down the same branch, which goes on with the
      -- same tokens.
      conv => rhs; unfold buildFrom
      simp_all +zetaDelta

theorem build_perm {kinds others : KindTable} (perm : kinds.Perm others) (distinct : kinds.Distinct)
    (owner : ShapeRef) (tokens : List RuleToken) :
    build ⟨kinds, owner⟩ tokens = build ⟨others, owner⟩ tokens := by
  have leaves (token : RuleToken) :
      kindLeaf ⟨kinds, owner⟩ token = kindLeaf ⟨others, owner⟩ token := by
    simp only [kindLeaf, KindTable.kindOf?_perm perm distinct, KindTable.sorted_perm perm]
  cases tokens with
  | nil => rfl
  | cons token rest =>
      simp only [build]
      rw [buildFrom_congr ⟨kinds, owner⟩ ⟨others, owner⟩ rfl leaves]

end Tree

namespace Shape

variable {shape : Shape} {id : ShapeId} {kinds : KindTable}

/-- The tree that the rules of a shape make. -/
def ruleTree (shape : Shape) (id : ShapeId) (kinds : KindTable) : Except RuleError Tree := do
  Tree.build { kinds, owner := .shape id shape.name } (← RuleToken.lexAll 0 shape.fields)

theorem ruleTree_perm {others : KindTable} (perm : kinds.Perm others) (distinct : kinds.Distinct) :
    shape.ruleTree id kinds = shape.ruleTree id others := by
  simp only [ruleTree, Tree.build_perm perm distinct]

theorem compile_of_error {error : RuleError} (pending : shape.phase = .pending)
    (wrong : shape.ruleTree id kinds = .error error) :
    (shape.compile id kinds).error = some error ∧
      ∃ tokens, (shape.compile id kinds).shape = { shape with tokens } := by
  unfold compile
  simp only [pending]
  cases lexed : RuleToken.lexAll 0 shape.fields with
  | error problem =>
      simp only [ruleTree, lexed] at wrong
      cases wrong
      exact ⟨rfl, shape.tokens, by rw [← pending]⟩
  | ok tokens =>
      simp only [ruleTree, lexed] at wrong
      have wrong :
          Tree.build { kinds, owner := .shape id shape.name } tokens = .error error := wrong
      simp only [wrong]
      exact ⟨trivial, tokens, rfl⟩

theorem compile_of_ok {root : Tree} (pending : shape.phase = .pending)
    (right : shape.ruleTree id kinds = .ok root) :
    (shape.compile id kinds).error = none ∧
      ∃ tokens, (shape.compile id kinds).shape =
        { shape with tokens, root := some root, resolved := [], phase := .ready } := by
  unfold compile
  simp only [pending]
  cases lexed : RuleToken.lexAll 0 shape.fields with
  | error problem =>
      simp only [ruleTree, lexed] at right
      cases right
  | ok tokens =>
      simp only [ruleTree, lexed] at right
      have right : Tree.build { kinds, owner := .shape id shape.name } tokens = .ok root := right
      simp only [right]
      exact ⟨trivial, tokens, rfl⟩

theorem compile_of_ready (ready : shape.phase = .ready) : shape.compile id kinds = { shape } := by
  simp only [compile, ready]

/-- The tree of a shape, if it has one, was built from rules. -/
def Built (shape : Shape) : Prop :=
  ∀ root, shape.root = some root → ∃ context tokens, Tree.build context tokens = .ok root

theorem ruleTree_ok {root : Tree} (right : shape.ruleTree id kinds = .ok root) :
    ∃ context tokens, Tree.build context tokens = .ok root := by
  obtain ⟨tokens, _, built⟩ := Tree.bind_eq_ok right
  exact ⟨_, tokens, built⟩

theorem Built.compile (built : shape.Built) (id : ShapeId) (kinds : KindTable) :
    (shape.compile id kinds).shape.Built := by
  cases phase : shape.phase with
  | pending =>
      cases made : shape.ruleTree id kinds with
      | error error =>
          obtain ⟨_, tokens, same⟩ := compile_of_error phase made
          rw [same]
          exact built
      | ok root =>
          obtain ⟨_, tokens, same⟩ := compile_of_ok phase made
          rw [same]
          rintro other ⟨⟩
          exact ruleTree_ok made
  | compiling =>
      simp only [Shape.compile, phase]
      exact built
  | ready =>
      rw [compile_of_ready phase]
      exact built

theorem Built.close (built : shape.Built) : shape.close.Built := by
  unfold Shape.close
  split <;> exact built

theorem Built.remember (built : shape.Built) (slot : Nat) (target : ShapeId) :
    (shape.remember slot target).Built := by
  unfold Shape.remember
  split <;> exact built

theorem Built.register {next : Shape} {field : Field} (built : shape.Built)
    (added : shape.register field = .ok next) : next.Built := by
  unfold Built
  rw [(pending_register added).2]
  exact built

theorem Built.rootWith {root : Tree} (built : shape.Built)
    (made : shape.rootWith id kinds = .ok root) :
    ∃ context tokens, Tree.build context tokens = .ok root := by
  unfold Shape.rootWith at made
  simp only at made
  split at made
  · cases made
  · split at made
    · rename_i stored
      cases made
      exact built.compile id kinds _ stored
    · cases made

end Shape

namespace Registry

variable {registry : Registry}

theorem environment_root_ok {kinds : KindTable} {id : ShapeId} {root : Tree}
    (made : (registry.environment kinds).root id = .ok root) :
    (registry.shape id).rootWith id kinds = .ok root := by
  simp only [environment, roots, List.getElem?_toArray, List.getElem?_mapIdx] at made
  cases found : registry.shapes[id]? with
  | none => simp [found] at made
  | some shape => simpa [found, Registry.shape] using made

/-- A tree that was built from rules has no empty choice. -/
theorem environment_noEmptyChoice (built : registry.EachShape Shape.Built) (kinds : KindTable) :
    (registry.environment kinds).NoEmptyChoice := by
  intro id root made
  obtain ⟨context, tokens, built⟩ := (built id).rootWith (environment_root_ok made)
  refine (Tree.build_plural built).imp fun node several empty => ?_
  have two := several [] empty
  simp at two

end Registry

end RecordGrammar
