import RecordGrammar.Proofs.Match.Parallel
import RecordGrammar.Proofs.Registry.Compilation

namespace RecordGrammar

/-! What a registry remembers from one parse to the next.

Shapes keep their trees, the slots in those trees keep what they were found to mean, and a shape
keeps the scanner it was once given. As long as nothing else is registered, all of this is what
would be found out again anyway. -/

namespace Tree

mutual
/-- What the references in a tree are to, from the first slot to the last. -/
def targets : Tree → List ShapeRef
  | .empty => []
  | .sequence members => targetsAll members
  | .alternation branches => targetsAll branches
  | .repetition inner _ => inner.targets
  | .leaf _ => []
  | .reference target _ => [target]

def targetsAll : List Tree → List ShapeRef
  | [] => []
  | tree :: rest => tree.targets ++ targetsAll rest
end

mutual
theorem length_targets : (tree : Tree) → tree.targets.length = tree.referenceCount
  | .empty | .leaf _ | .reference _ _ => rfl
  | .sequence members | .alternation members => by
      rw [targets, referenceCount, length_targetsAll members]
  | .repetition inner _ => by rw [targets, referenceCount, length_targets inner]

theorem length_targetsAll :
    (trees : List Tree) → (targetsAll trees).length = referenceCountAll trees
  | [] => rfl
  | tree :: rest => by
      rw [targetsAll, referenceCountAll, List.length_append, length_targets tree,
        length_targetsAll rest]
end

/-- References that stand one after the other in the slots of a shape's tree, the first where the
site says. Those of a tree on its own belong to no shape and stand anywhere. -/
def Placed (rootOf : ShapeId → Tree → Prop) (site : Site) (targets : List ShapeRef) : Prop :=
  ∀ owner, site.owner = some owner → ∃ root, rootOf owner root ∧
    targets <+: root.targets.drop site.slot

namespace Placed

variable {rootOf : ShapeId → Tree → Prop} {site : Site} {trees : List Tree}

theorem root {id : ShapeId} {root : Tree} (made : rootOf id root) :
    Placed rootOf ⟨some id, 0⟩ root.targets := by
  intro owner owned
  cases owned
  exact ⟨root, made, List.prefix_refl _⟩

theorem head {tree : Tree} (placed : Placed rootOf site (targetsAll (tree :: trees))) :
    Placed rootOf site tree.targets := by
  intro owner owned
  obtain ⟨root, made, within⟩ := placed owner owned
  exact ⟨root, made, (List.prefix_append _ _).trans within⟩

theorem rest {tree : Tree} (placed : Placed rootOf site (targetsAll (tree :: trees))) :
    Placed rootOf (site.after tree) (targetsAll trees) := by
  intro owner owned
  obtain ⟨root, made, more, split⟩ := placed owner owned
  refine ⟨root, made, more, ?_⟩
  rw [targetsAll, List.append_assoc] at split
  rw [Site.after, ← List.drop_drop, ← split, ← length_targets, List.drop_left]

/-- A reference stands in the slot that its site tells. -/
theorem slot {owner : ShapeId} {slot : Nat} {target : ShapeRef}
    (placed : Placed rootOf ⟨some owner, slot⟩ [target]) :
    ∃ root, rootOf owner root ∧ root.targets[slot]? = some target := by
  obtain ⟨root, made, later, split⟩ := placed owner rfl
  refine ⟨root, made, ?_⟩
  have first := congrArg (fun targets => targets[0]?) split
  simpa [List.getElem?_drop] using first.symm

theorem inRow (placed : Placed rootOf site (targetsAll trees)) :
    InRow (fun site tree => Placed rootOf site tree.targets) site trees := by
  induction trees generalizing site with
  | nil => trivial
  | cons tree rest ih => exact ⟨placed.head, ih placed.rest⟩

end Placed

/-- The trees of an environment lead only to trees whose references stand where they should. -/
theorem reaches_placed (env : Environment) :
    Reaches env fun site tree =>
      Placed (fun id root => env.root id = .ok root) site tree.targets where
  members := Placed.inRow
  branches := Placed.inRow
  inner := id
  root := fun made => Placed.root made

end Tree

namespace Registry

/-- The scanner that a shape is scanned by unless a parse has another one. -/
def scannerOfShape (registry : Registry) (shape : Shape) : Scanner :=
  match shape.scanner, shape.grammar.bind (registry.grammars[·]?) with
  | some scanner, _ => registry.scanner scanner
  | none, some grammar => registry.scanner grammar.scanner
  | none, none => .standard

theorem scanner_of_length_le (registry : Registry) {id : Nat}
    (beyond : registry.scanners.length ≤ id) :
    registry.scanner id = .standard := by
  simp only [scanner, List.getElem?_eq_none beyond, Option.map_none, Option.getD_none]

/-- Adding the standard scanner gives no number another scanner. -/
theorem scanner_addScanner_standard (registry : Registry) (id : Nat) :
    (registry.addScanner .standard).1.scanner id = registry.scanner id := by
  rw [addScanner, scanner_append]
  split
  · rename_i here
    rw [registry.scanner_of_length_le (Nat.le_of_eq here.symm)]
  · rfl

theorem scanner_leaveReader (registry : Registry) (id : Nat) (reader : Reader) (place : Nat) :
    (registry.leaveReader id reader).scanner place = registry.scanner place := by
  simp only [leaveReader, scanner, List.getElem?_modify]
  split
  · cases registry.scanners[place]? <;> rfl
  · simp

/-- A shape has its own scanner, or is given that of its grammar or a standard one. -/
theorem scannerOf_cases (registry : Registry) (id : ShapeId) :
    (∃ scanner, (registry.shape id).scanner = some scanner ∧
      registry.scannerOf id = (registry, scanner)) ∨
    (∃ grammar, (registry.shape id).scanner = none ∧
      (registry.shape id).grammar.bind (registry.grammars[·]?) = some grammar ∧
      registry.scannerOf id =
        (registry.setShape id { registry.shape id with scanner := some grammar.scanner },
          grammar.scanner)) ∨
    ((registry.shape id).scanner = none ∧
      (registry.shape id).grammar.bind (registry.grammars[·]?) = none ∧
      registry.scannerOf id =
        ((registry.addScanner .standard).1.setShape id
          { registry.shape id with scanner := some registry.scanners.length },
          registry.scanners.length)) := by
  unfold scannerOf
  simp only
  split
  · rename_i scanner own
    exact .inl ⟨scanner, own, rfl⟩
  · rename_i grammar own outer
    exact .inr (.inl ⟨grammar, own, outer, rfl⟩)
  · rename_i own outer
    exact .inr (.inr ⟨own, outer, rfl⟩)

theorem scannerOf_scanner (registry : Registry) (id : ShapeId) (place : Nat) :
    (registry.scannerOf id).1.scanner place = registry.scanner place := by
  obtain ⟨_, _, asked⟩ | ⟨_, _, _, asked⟩ | ⟨_, _, asked⟩ :=
    registry.scannerOf_cases id <;> rw [asked]
  · rfl
  · exact registry.scanner_addScanner_standard place

theorem scanner_scannerOf (registry : Registry) (id : ShapeId) :
    registry.scanner (registry.scannerOf id).2 = registry.scannerOfShape (registry.shape id) := by
  obtain ⟨_, own, asked⟩ | ⟨_, own, outer, asked⟩ | ⟨own, outer, asked⟩ :=
    registry.scannerOf_cases id
  · simp only [asked, scannerOfShape, own]
  · simp only [asked, scannerOfShape, own, outer]
  · simp only [asked, scannerOfShape, own, outer]
    exact registry.scanner_of_length_le (Nat.le_refl _)

end Registry

/-- Only a shape with a tree recalls what a slot was found to mean. -/
theorem Shape.resolved?_eq_some {shape : Shape} {slot : Nat} {found : ShapeId}
    (recalled : shape.resolved? slot = some found) :
    shape.phase = .ready ∧ (slot, found) ∈ shape.resolved := by
  unfold resolved? at recalled
  split at recalled
  · rename_i ready
    obtain ⟨entry, listed, rfl⟩ := Option.map_eq_some_iff.mp recalled
    have same : entry.1 = slot := by simpa using List.find?_some listed
    exact ⟨ready, same ▸ List.mem_of_find?_eq_some listed⟩
  · cases recalled

/-- A shape as it may become in the course of parses, if it began as registered. It may have been
given its scanner and its tree, and have found out what references in the tree mean. -/
structure Shape.Retains (fresh : Registry) (kinds : KindTable) (id : ShapeId)
    (shape : Shape) : Prop where
  name : shape.name = (fresh.shape id).name
  grammar : shape.grammar = (fresh.shape id).grammar
  factory : shape.factory = (fresh.shape id).factory
  fields : shape.fields = (fresh.shape id).fields
  scanner : fresh.scannerOfShape shape = fresh.scannerOfShape (fresh.shape id)
  memory : shape.phase = .pending ∨
    shape.phase = .ready ∧ ∃ root, (fresh.shape id).ruleTree id kinds = .ok root ∧
    shape.root = some root ∧
      ∀ entry ∈ shape.resolved, ∃ target, root.targets[entry.1]? = some target ∧
        fresh.resolve ⟨some id, entry.1⟩ target = .ok entry.2

/-- A registry as it may become in the course of parses. -/
structure Registry.Retains (fresh : Registry) (kinds : KindTable) (used : Registry) : Prop where
  grammars : used.grammars = fresh.grammars
  scopes : used.scopes = fresh.scopes
  count : used.shapes.length = fresh.shapes.length
  scanner : ∀ id, used.scanner id = fresh.scanner id
  shape : ∀ id, (used.shape id).Retains fresh kinds id

/-- Whether an event tells what a registration leads to: a shape is reached through a slot only if
the reference there means it. -/
def Event.Honest (fresh : Registry) (kinds : KindTable) : Event → Prop
  | .reached ⟨some owner, slot⟩ id =>
      ∃ root target, (fresh.shape owner).ruleTree owner kinds = .ok root ∧
        root.targets[slot]? = some target ∧ fresh.resolve ⟨some owner, slot⟩ target = .ok id
  | _ => True

namespace Shape.Retains

variable {fresh : Registry} {kinds others : KindTable} {id : ShapeId} {shape : Shape}

theorem ruleTree_eq (retains : shape.Retains fresh kinds id) (perm : others.Perm kinds)
    (distinct : others.Distinct) :
    shape.ruleTree id others = (fresh.shape id).ruleTree id kinds := by
  rw [ruleTree_perm perm distinct]
  simp only [ruleTree, retains.name, retains.fields]

theorem compile (retains : shape.Retains fresh kinds id) (perm : others.Perm kinds)
    (distinct : others.Distinct) :
    (shape.compile id others).shape.Retains fresh kinds id := by
  rcases retains.memory with pending | ⟨ready, _⟩
  · have same := retains.ruleTree_eq perm distinct
    cases made : shape.ruleTree id others with
    | error error =>
        obtain ⟨_, tokens, compiled⟩ := compile_of_error pending made
        rw [compiled]
        exact { retains with memory := .inl pending }
    | ok root =>
        obtain ⟨_, tokens, compiled⟩ := compile_of_ok pending made
        rw [compiled]
        exact { retains with memory := .inr ⟨rfl, root, same ▸ made, rfl, by simp⟩ }
  · rw [compile_of_ready ready]
    exact retains

theorem remember (retains : shape.Retains fresh kinds id) {slot : Nat} {found : ShapeId}
    (honest : (Event.reached ⟨some id, slot⟩ found).Honest fresh kinds) :
    (shape.remember slot found).Retains fresh kinds id := by
  unfold Shape.remember
  split
  · exact retains
  · rcases retains.memory with pending | ⟨ready, root, made, stored, remembered⟩
    · exact { retains with memory := .inl pending }
    · obtain ⟨other, target, madeToo, there, means⟩ := honest
      cases made.symm.trans madeToo
      refine { retains with memory := .inr ⟨ready, root, made, stored, fun entry held => ?_⟩ }
      rcases List.mem_append.mp held with old | last
      · exact remembered entry old
      · cases List.mem_singleton.mp last
        exact ⟨target, there, means⟩

theorem close (retains : shape.Retains fresh kinds id) : shape.close.Retains fresh kinds id := by
  unfold Shape.close
  split
  · exact { retains with }
  · exact retains

end Shape.Retains

namespace Registry.Retains

variable {fresh used : Registry} {kinds others : KindTable}

/-- What has just been registered is as it was registered. -/
theorem refl (pending : fresh.EachShape fun shape => shape.phase = .pending) (kinds : KindTable) :
    fresh.Retains kinds fresh where
  grammars := rfl
  scopes := rfl
  count := rfl
  scanner := fun _ => rfl
  shape := fun id => ⟨rfl, rfl, rfl, rfl, rfl, .inl (pending id)⟩

theorem setShape (retains : fresh.Retains kinds used) {id : ShapeId} {shape : Shape}
    (kept : shape.Retains fresh kinds id) : fresh.Retains kinds (used.setShape id shape) where
  grammars := retains.grammars
  scopes := retains.scopes
  count := by rw [Registry.setShape, List.length_set, retains.count]
  scanner := retains.scanner
  shape := fun place => by
    rw [shape_setShape]
    split
    · rename_i here
      exact here.1 ▸ kept
    · exact retains.shape place

theorem scannerOf (retains : fresh.Retains kinds used) (id : ShapeId) :
    fresh.Retains kinds (used.scannerOf id).1 := by
  have keeps := retains.shape id
  obtain ⟨_, own, asked⟩ | ⟨_, own, outer, asked⟩ | ⟨own, outer, asked⟩ :=
    used.scannerOf_cases id <;> rw [asked]
  · exact retains
  · refine retains.setShape { keeps with scanner := ?_ }
    rw [← keeps.scanner]
    simp only [scannerOfShape, own, ← retains.grammars, outer]
  · have added : fresh.Retains kinds (used.addScanner .standard).1 :=
      { retains with
        scanner :=
          fun place => (used.scanner_addScanner_standard place).trans (retains.scanner place)
        shape := retains.shape }
    refine added.setShape { keeps with scanner := ?_ }
    rw [← keeps.scanner]
    simp only [scannerOfShape, own, ← retains.grammars, outer, ← retains.scanner]
    exact used.scanner_of_length_le (Nat.le_refl _)

theorem compile (retains : fresh.Retains kinds used) (perm : others.Perm kinds)
    (distinct : others.Distinct) (id : ShapeId) :
    fresh.Retains kinds (used.compile id others).registry :=
  retains.setShape ((retains.shape id).compile perm distinct)

theorem leaveReader (retains : fresh.Retains kinds used) (id : Nat) (reader : Reader) :
    fresh.Retains kinds (used.leaveReader id reader) :=
  { retains with
    scanner := fun place => (used.scanner_leaveReader id reader place).trans (retains.scanner place)
    shape := retains.shape }

theorem settle (retains : fresh.Retains kinds used) (perm : others.Perm kinds)
    (distinct : others.Distinct) {events : List Event}
    (honest : ∀ event ∈ events, event.Honest fresh kinds) :
    fresh.Retains kinds (used.settle others events).1 := by
  induction events generalizing used with
  | nil => exact retains
  | cons event rest ih =>
      simp only [Registry.settle]
      refine ih ?_ fun later held => honest later (by simp [held])
      have first := honest event (by simp)
      match event with
      | .reached ⟨some owner, slot⟩ id =>
          exact (retains.setShape ((retains.shape owner).remember first)).compile perm distinct id
      | .reached ⟨none, slot⟩ id => exact retains.compile perm distinct id
      | .made id => exact retains.setShape (retains.shape id).close

end Registry.Retains

end RecordGrammar
