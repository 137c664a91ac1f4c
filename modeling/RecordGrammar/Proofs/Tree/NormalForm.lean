import RecordGrammar.Proofs.Tree.Nodes

namespace RecordGrammar

/-! Simplifying brings every tree into its normal form at once.

A node that collapses leaves one behind that has been simplified already, so nothing that collapses
is laid bare. What is taken away are nodes around others only: the tips of a tree stay, each in its
place. -/

/-- What a tree consists of in the end: leaves, and references to the trees of shapes. -/
inductive Tip where
  | leaf (taker : Leaf)
  | reference (target : ShapeRef) (field : Field)
deriving DecidableEq, Repr

/-- The field of a reference. -/
def Tip.referring? : Tip → Option Field
  | .leaf _ => none
  | .reference _ field => some field

namespace Tree

mutual
/-- The leaves and the references of a tree, from left to right. -/
def tips : Tree → List Tip
  | .empty => []
  | .sequence members => tipsAll members
  | .alternation branches => tipsAll branches
  | .repetition inner _ => inner.tips
  | .leaf taker => [.leaf taker]
  | .reference target field => [.reference target field]

def tipsAll : List Tree → List Tip
  | [] => []
  | tree :: rest => tree.tips ++ tipsAll rest
end

/-- The fields that the references in a tree belong to, from left to right. -/
def referring (tree : Tree) : List Field := tree.tips.filterMap Tip.referring?

def referringAll (trees : List Tree) : List Field := (tipsAll trees).filterMap Tip.referring?

/-- A node that stands for more than the one thing that it holds. A choice between nothing does: it
always fails. -/
def IrreducibleNode : Tree → Prop
  | .sequence members => 2 ≤ members.length
  | .alternation branches => branches.length ≠ 1
  | .repetition _ bound => bound ≠ .once
  | _ => True

abbrev Irreducible (tree : Tree) : Prop := tree.Every IrreducibleNode

theorem tips_row (members : List Tree) : (row members).tips = tipsAll members := by
  match members with
  | [] => rfl
  | [member] => exact (List.append_nil _).symm
  | first :: second :: rest => rfl

theorem tips_choice (branches : List Tree) : (choice branches).tips = tipsAll branches := by
  match branches with
  | [] => rfl
  | [branch] => exact (List.append_nil _).symm
  | first :: second :: rest => rfl

theorem tipsAll_map {trees : List Tree} {change : Tree → Tree}
    (kept : ∀ tree ∈ trees, (change tree).tips = tree.tips) :
    tipsAll (trees.map change) = tipsAll trees := by
  induction trees with
  | nil => rfl
  | cons tree rest ih =>
      have first := kept tree (by simp)
      have later := ih fun other held => kept other (List.mem_cons_of_mem tree held)
      rw [List.map_cons, tipsAll, tipsAll, first, later]

/-- No tip of a tree is lost, doubled or moved. -/
theorem tips_simplify (tree : Tree) : tree.simplify.tips = tree.tips := by
  induction tree with
  | empty | leaf | reference => rfl
  | sequence members ih =>
      rw [simplify_sequence_eq_row, tips_row]
      exact tipsAll_map ih
  | alternation branches ih =>
      rw [simplify_alternation_eq_choice, tips_choice]
      exact tipsAll_map ih
  | repetition inner bound ih =>
      by_cases once : bound = .once
      · rw [once]
        exact ih
      · rw [simplify_repetition inner once]
        exact ih

mutual
theorem length_referring : (tree : Tree) → tree.referring.length = tree.referenceCount
  | .empty | .leaf _ | .reference _ _ => rfl
  | .sequence trees | .alternation trees => length_referringAll trees
  | .repetition inner _ => length_referring inner

theorem length_referringAll :
    (trees : List Tree) → (referringAll trees).length = referenceCountAll trees
  | [] => rfl
  | tree :: rest => by
      rw [referringAll, tipsAll, List.filterMap_append, List.length_append, ← referring,
        ← referringAll, length_referring tree, length_referringAll rest, referenceCountAll]
end

/-- Simplifying a tree keeps its references, so they stay in their slots. -/
theorem referenceCount_simplify (tree : Tree) :
    tree.simplify.referenceCount = tree.referenceCount := by
  rw [← length_referring, ← length_referring, referring, referring, tips_simplify]

theorem irreducible_row {members : List Tree} (inside : ∀ member ∈ members, member.Irreducible) :
    (row members).Irreducible := by
  match members with
  | [] => exact .empty trivial
  | [member] => exact inside member (by simp)
  | first :: second :: rest => exact .sequence (by simp [IrreducibleNode]) inside

theorem irreducible_choice {branches : List Tree}
    (inside : ∀ branch ∈ branches, branch.Irreducible) :
    (choice branches).Irreducible := by
  match branches with
  | [] => exact .alternation (by simp [IrreducibleNode]) inside
  | [branch] => exact inside branch (by simp)
  | first :: second :: rest => exact .alternation (by simp [IrreducibleNode]) inside

theorem simplify_irreducible (tree : Tree) : tree.simplify.Irreducible := by
  induction tree with
  | empty => exact .empty trivial
  | leaf taker => exact .leaf trivial
  | reference target field => exact .reference trivial
  | sequence members ih =>
      rw [simplify_sequence_eq_row]
      apply irreducible_row
      exact List.forall_mem_map.mpr ih
  | alternation branches ih =>
      rw [simplify_alternation_eq_choice]
      apply irreducible_choice
      exact List.forall_mem_map.mpr ih
  | repetition inner bound ih =>
      by_cases once : bound = .once
      · rw [once]
        exact ih
      · rw [simplify_repetition inner once]
        exact .repetition once ih

theorem Irreducible.simplify_eq {tree : Tree} (irreducible : tree.Irreducible) :
    tree.simplify = tree := by
  have unchanged {trees : List Tree} (ih : ∀ tree ∈ trees, tree.Irreducible → tree.simplify = tree)
      (inside : ∀ tree ∈ trees, tree.Irreducible) : trees.map simplify = trees :=
    (List.map_congr_left fun tree held => ih tree held (inside tree held)).trans
      (List.map_id' trees)
  induction tree with
  | empty | leaf | reference => rfl
  | sequence members ih =>
      obtain ⟨plural, inside⟩ := every_sequence.mp irreducible
      rw [simplify_sequence plural, unchanged ih inside]
  | alternation branches ih =>
      obtain ⟨plural, inside⟩ := every_alternation.mp irreducible
      rw [simplify_alternation plural, unchanged ih inside]
  | repetition inner bound ih =>
      obtain ⟨several, inside⟩ := every_repetition.mp irreducible
      rw [simplify_repetition inner several, ih inside]

/-- One pass of simplifying is enough. At no depth of the result is there a sequence of less than
two members, an alternation of a single branch or a group that is matched exactly once, so a second
pass changes nothing; and the leaves and the references, each with its field, are those of the tree,
in the same order. -/
theorem simplify_normal (tree : Tree) :
    tree.simplify.Irreducible ∧ tree.simplify.tips = tree.tips ∧
      tree.simplify.simplify = tree.simplify := by
  have irreducible := simplify_irreducible tree
  exact ⟨irreducible, tips_simplify tree, irreducible.simplify_eq⟩

/-- The group in the middle collapses, then what holds it, and then what holds that. -/
example (taker : Leaf) :
    (sequence [.alternation [.repetition (.sequence [.leaf taker, .empty]) .once]]).simplify =
      .sequence [.leaf taker, .empty] := rfl

end Tree

end RecordGrammar
