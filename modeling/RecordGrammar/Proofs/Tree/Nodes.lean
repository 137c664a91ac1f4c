import RecordGrammar.Tree.Basic

namespace RecordGrammar

/-! The nodes of a match tree: induction over them, properties of all of them, and what simplifying
makes of each.
-/

namespace Tree

/-- Induction over trees in which all that a node holds is at hand. -/
@[elab_as_elim, induction_eliminator]
theorem byNodes {motive : Tree → Prop} (empty : motive .empty)
    (sequence : ∀ members, (∀ member ∈ members, motive member) → motive (.sequence members))
    (alternation : ∀ branches, (∀ branch ∈ branches, motive branch) →
      motive (.alternation branches))
    (repetition : ∀ inner bound, motive inner → motive (.repetition inner bound))
    (leaf : ∀ taker, motive (.leaf taker))
    (reference : ∀ target field, motive (.reference target field)) (tree : Tree) : motive tree := by
  apply @Tree.rec motive (fun trees => ∀ tree ∈ trees, motive tree)
  · exact empty
  · exact sequence
  · exact alternation
  · exact fun inner bound held => repetition inner bound held
  · exact leaf
  · exact reference
  · intro tree member
    cases member
  · intro head tail first rest tree member
    rcases List.mem_cons.mp member with rfl | later
    · exact first
    · exact rest tree later

/-- A property of every node of a tree. -/
inductive Every (holds : Tree → Prop) : Tree → Prop
  | empty (here : holds .empty) : Every holds .empty
  | sequence (here : holds (.sequence members)) (inside : ∀ member ∈ members, Every holds member) :
      Every holds (.sequence members)
  | alternation (here : holds (.alternation branches))
      (inside : ∀ branch ∈ branches, Every holds branch) : Every holds (.alternation branches)
  | repetition {inner : Tree} (here : holds (.repetition inner bound))
      (inside : Every holds inner) :
      Every holds (.repetition inner bound)
  | leaf (here : holds (.leaf taker)) : Every holds (.leaf taker)
  | reference (here : holds (.reference target field)) : Every holds (.reference target field)

section Every

variable {holds : Tree → Prop}

@[simp] theorem every_empty : Every holds .empty ↔ holds .empty :=
  ⟨fun | .empty here => here, .empty⟩

@[simp] theorem every_sequence :
    Every holds (.sequence members) ↔
      holds (.sequence members) ∧ ∀ member ∈ members, Every holds member :=
  ⟨fun | .sequence here inside => ⟨here, inside⟩, fun ⟨here, inside⟩ => .sequence here inside⟩

@[simp] theorem every_alternation :
    Every holds (.alternation branches) ↔
      holds (.alternation branches) ∧ ∀ branch ∈ branches, Every holds branch :=
  ⟨fun | .alternation here inside => ⟨here, inside⟩, fun ⟨here, inside⟩ => .alternation here inside⟩

@[simp] theorem every_repetition {inner : Tree} :
    Every holds (.repetition inner bound) ↔ holds (.repetition inner bound) ∧ Every holds inner :=
  ⟨fun | .repetition here inside => ⟨here, inside⟩, fun ⟨here, inside⟩ => .repetition here inside⟩

@[simp] theorem every_leaf : Every holds (.leaf taker) ↔ holds (.leaf taker) :=
  ⟨fun | .leaf here => here, .leaf⟩

@[simp] theorem every_reference :
    Every holds (.reference target field) ↔ holds (.reference target field) :=
  ⟨fun | .reference here => here, .reference⟩

theorem Every.imp {weaker : Tree → Prop} (implies : ∀ node, holds node → weaker node)
    (every : Every holds tree) : Every weaker tree := by
  induction every with
  | empty here => exact .empty (implies _ here)
  | sequence here _ ih => exact .sequence (implies _ here) ih
  | alternation here _ ih => exact .alternation (implies _ here) ih
  | repetition here _ ih => exact .repetition (implies _ here) ih
  | leaf here => exact .leaf (implies _ here)
  | reference here => exact .reference (implies _ here)

end Every

theorem simplifyAll_eq_map (trees : List Tree) : simplifyAll trees = trees.map simplify := by
  induction trees with
  | nil => rfl
  | cons tree rest ih => simp only [simplifyAll, List.map_cons, ih]

/-- Some members as one tree, which needs no sequence for less than two of them. -/
def row : List Tree → Tree
  | [] => .empty
  | [member] => member
  | members => .sequence members

/-- Some alternatives as one tree, which a single one needs no alternation for. -/
def choice : List Tree → Tree
  | [branch] => branch
  | branches => .alternation branches

theorem simplify_sequence_eq_row (members : List Tree) :
    (sequence members).simplify = row (members.map simplify) := by
  match members with
  | [] => rfl
  | [member] => rfl
  | first :: second :: rest => simp only [simplify, List.map_cons, simplifyAll_eq_map, row]

theorem simplify_alternation_eq_choice (branches : List Tree) :
    (alternation branches).simplify = choice (branches.map simplify) := by
  match branches with
  | [] => rfl
  | [branch] => rfl
  | first :: second :: rest => simp only [simplify, List.map_cons, simplifyAll_eq_map, choice]

theorem row_eq_sequence {members : List Tree} (plural : 2 ≤ members.length) :
    row members = .sequence members := by
  match members with
  | [] => simp at plural
  | [member] => simp at plural
  | first :: second :: rest => rfl

theorem choice_eq_alternation {branches : List Tree} (plural : branches.length ≠ 1) :
    choice branches = .alternation branches := by
  match branches with
  | [] => rfl
  | [branch] => simp at plural
  | first :: second :: rest => rfl

theorem simplify_sequence {members : List Tree} (plural : 2 ≤ members.length) :
    (sequence members).simplify = .sequence (members.map simplify) := by
  rw [simplify_sequence_eq_row, row_eq_sequence (by simpa using plural)]

theorem simplify_alternation {branches : List Tree} (plural : branches.length ≠ 1) :
    (alternation branches).simplify = .alternation (branches.map simplify) := by
  rw [simplify_alternation_eq_choice, choice_eq_alternation (by simpa using plural)]

theorem simplify_choice (branches : List Tree) :
    (choice branches).simplify = (alternation branches).simplify := by
  match branches with
  | [] => rfl
  | [branch] => rfl
  | first :: second :: rest => rfl

theorem simplify_repetition (inner : Tree) {bound : Bound} (several : bound ≠ .once) :
    (repetition inner bound).simplify = .repetition inner.simplify bound := by
  cases bound with
  | once => contradiction
  | _ => rfl

theorem simplify_repetition_congr {inner other : Tree} (same : inner.simplify = other.simplify)
    (bound : Bound) :
    (repetition inner bound).simplify = (repetition other bound).simplify := by
  by_cases once : bound = .once
  · rw [once]
    exact same
  · rw [simplify_repetition inner once, simplify_repetition other once, same]

/-- A property of nodes that those which hold other nodes have anyway, but for choices between less
than two. -/
structure Structural (holds : Tree → Prop) : Prop where
  empty : holds .empty
  sequence : ∀ members, holds (.sequence members)
  alternation : ∀ first second rest, holds (.alternation (first :: second :: rest))
  repetition : ∀ inner bound, holds (.repetition inner bound)

namespace Structural

variable {holds : Tree → Prop}

theorem choice {branches : List Tree} (structural : Structural holds)
    (none : branches = [] → holds (.alternation []))
    (inside : ∀ branch ∈ branches, branch.Every holds) : (choice branches).Every holds := by
  match branches with
  | [] => exact .alternation (none rfl) inside
  | [branch] => exact inside branch (by simp)
  | first :: second :: rest => exact .alternation (structural.alternation first second rest) inside

theorem row {members : List Tree} (structural : Structural holds)
    (inside : ∀ member ∈ members, member.Every holds) : (row members).Every holds := by
  match members with
  | [] => exact .empty structural.empty
  | [member] => exact inside member (by simp)
  | first :: second :: rest => exact .sequence (structural.sequence _) inside

/-- Simplifying a tree makes no nodes of another sort. -/
theorem simplify {tree : Tree} (structural : Structural holds) (every : tree.Every holds) :
    tree.simplify.Every holds := by
  induction tree with
  | empty | leaf | reference => exact every
  | sequence members ih =>
      obtain ⟨_, inside⟩ := every_sequence.mp every
      rw [simplify_sequence_eq_row]
      apply structural.row
      exact List.forall_mem_map.mpr fun member held => ih member held (inside member held)
  | alternation branches ih =>
      obtain ⟨here, inside⟩ := every_alternation.mp every
      rw [simplify_alternation_eq_choice]
      apply structural.choice
      · intro none
        rw [List.map_eq_nil_iff] at none
        exact none ▸ here
      · exact List.forall_mem_map.mpr fun branch held => ih branch held (inside branch held)
  | repetition inner bound ih =>
      obtain ⟨_, inside⟩ := every_repetition.mp every
      by_cases once : bound = .once
      · rw [once]
        exact ih inside
      · rw [simplify_repetition inner once]
        exact .repetition (structural.repetition _ _) (ih inside)

end Structural

end Tree

end RecordGrammar
