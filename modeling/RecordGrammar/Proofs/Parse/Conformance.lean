import RecordGrammar.Proofs.Parse.Typing

namespace RecordGrammar

open RecordGrammar.Source (SourceText)

/-! What a parse gives conforms to the shapes.

A match of the tree of a shape binds what the fields of the shape may hold: its leaves give values
of tokens to fields that hold no records, and its references give records that conform themselves,
by induction on how they were matched. New records conform as well, so nothing goes wrong when they
take what is bound. -/

namespace Registry

/-- What trees, references and new records have to do with the shapes that are registered. -/
structure Typed (registry : Registry) (named : ShapeId → String → ShapeId → Prop)
    (env : Environment) : Prop where
  known : ∀ {id : ShapeId}, env.root id = .ok root → id < registry.shapes.length
  wellFormed : ∀ {id : ShapeId}, env.root id = .ok root → (registry.shape id).WellFormed
  fits : ∀ {id : ShapeId}, env.root id = .ok root →
    root.Fits (registry.shape id).fields (.shape id (registry.shape id).name)
  means : ∀ {owner id : ShapeId} {slot : Nat}, env.root owner = .ok root →
    root.targets[slot]? = some target → env.resolve ⟨some owner, slot⟩ target = .ok id →
    target.Means (named owner) id
  blank : ∀ {id : ShapeId}, env.root id = .ok root → env.fresh id = .ok value →
    value = .entity (.record id) (registry.shape id).name none
      ((registry.shape id).fields.map fun field => (field.name, field.default))
  fill : env.fill = Binding.applyAll

section Steps

variable {registry : Registry} {named : ShapeId → String → ShapeId → Prop} {env : Environment}
  {stream : TokenStream} {last : Nat}

theorem Typed.ofShape_blank (typed : registry.Typed named env) {id : ShapeId} {root : Tree}
    {blank : Value} {taken : Token → Prop} (made : env.root id = .ok root)
    (new : env.fresh id = .ok blank) :
    registry.OfShape named taken id blank := by
  rw [typed.blank made new]
  exact ofShape_defaults (typed.known made) (typed.wellFormed made)

theorem Typed.means_of_placed (typed : registry.Typed named env) {owner id : ShapeId} {site : Site}
    {target : ShapeRef} (owned : site.owner = some owner)
    (placed : Tree.Placed (fun id root => env.root id = .ok root) site [target])
    (resolved : env.resolve site target = .ok id) : target.Means (named owner) id := by
  obtain ⟨_, slot⟩ := site
  cases owned
  obtain ⟨root, made, there⟩ := placed.slot
  exact typed.means made there resolved

theorem leaf_proper {owner : ShapeId} {taker : Leaf} {token : Token} {bindings : List Binding}
    {taken : Token → Prop} (wellFormed : (registry.shape owner).WellFormed) (passed : taken token)
    (fits : Tree.FitsNode (registry.shape owner).fields (.shape owner (registry.shape owner).name)
      (.leaf taker))
    (bound : taker.bind token = .ok bindings) :
    ∀ binding ∈ bindings, registry.Proper named taken owner binding := by
  obtain ⟨here, rfl | ⟨scalar, value, coerced, rfl⟩⟩ := Leaf.bind_ok fits bound
  · simp
  · have single := wellFormed.single_of_scalar here scalar
    exact List.forall_mem_singleton.mpr
      (.assign here single (.text single token passed coerced) (conforms_of_coerce coerced))

theorem holding_proper {owner id : ShapeId} {field : Field} {item : Value} {taken : Token → Prop}
    (here : field ∈ (registry.shape owner).fields) (refers : field.Refers)
    (means : field.Element (named owner) owner id) (whole : registry.OfShape named taken id item) :
    registry.Proper named taken owner (field.holding item) := by
  unfold Field.holding
  cases many : field.many with
  | true => exact .append here many means whole
  | false => exact .assign here many (.record many refers id means whole.record) whole.conforms

mutual
theorem Typed.takes_proper (typed : registry.Typed named env) {site : Site} {tree : Tree}
    {start stop : Nat} {steps : List Step} :
    Takes env stream site tree start stop steps → stop ≤ last → (owner : ShapeId) →
      site.owner = some owner →
      Tree.Placed (fun id root => env.root id = .ok root) site tree.targets →
      tree.Fits (registry.shape owner).fields (.shape owner (registry.shape owner).name) →
      ∀ binding ∈ steps.flatMap Step.bindings,
        registry.Proper named (stream.Taken last) owner binding
  | .empty, _, _, _, _, _ | .sequenceEnd, _, _, _, _, _ => by simp
  | .sequenceStep first rest, within, owner, owned, placed, fits => by
      obtain ⟨here, later⟩ := List.forall_mem_cons.mp (Tree.every_sequence.mp fits).2
      have early := Nat.le_trans rest.shareOut.ordered within
      rw [List.flatMap_append]
      exact List.forall_mem_append.mpr ⟨typed.takes_proper first early owner owned placed.head here,
        typed.takes_proper rest within owner owned placed.rest (.sequence trivial later)⟩
  | .choiceTakes first, within, owner, owned, placed, fits => by
      obtain ⟨here, _⟩ := List.forall_mem_cons.mp (Tree.every_alternation.mp fits).2
      exact typed.takes_proper first within owner owned placed.head here
  | .choiceSkips _ rest, within, owner, owned, placed, fits => by
      obtain ⟨_, later⟩ := List.forall_mem_cons.mp (Tree.every_alternation.mp fits).2
      exact typed.takes_proper rest within owner owned placed.rest (.alternation trivial later)
  | .turns turns _, within, owner, owned, placed, fits =>
      typed.turns_proper turns within owner owned placed (Tree.every_repetition.mp fits).2
  | .leaf current unmarked _ bound, within, owner, owned, placed, fits => by
      obtain ⟨root, made, _⟩ := placed owner owned
      rw [List.flatMap_singleton]
      exact leaf_proper (typed.wellFormed made) ⟨_, within, current, unmarked⟩
        (Tree.every_leaf.mp fits) bound
  | .reference id resolved built nested new filled, within, owner, owned, placed, fits => by
      obtain ⟨here, refers, same⟩ := Tree.every_reference.mp fits
      -- The steps inside fill a new record of the shape that is meant, so what they make of it
      -- conforms.
      have inside := typed.takes_proper nested within id rfl (.root built) (typed.fits built)
      obtain ⟨item, applied, whole⟩ :=
        (typed.ofShape_blank built new).applyAll (typed.wellFormed built) inside
      rw [typed.fill] at filled
      cases filled.symm.trans applied
      have means := typed.means_of_placed owned placed resolved
      rw [same] at means
      rw [List.flatMap_singleton]
      exact List.forall_mem_singleton.mpr
        (holding_proper here refers (Field.element_of_means means) whole)

theorem Typed.turns_proper (typed : registry.Typed named env) {site : Site} {inner : Tree}
    {bound : Bound} {taken start total stop : Nat} {steps : List Step} :
    TakesTurns env stream site inner bound taken start total stop steps → stop ≤ last →
      (owner : ShapeId) → site.owner = some owner →
      Tree.Placed (fun id root => env.root id = .ok root) site inner.targets →
      inner.Fits (registry.shape owner).fields (.shape owner (registry.shape owner).name) →
      ∀ binding ∈ steps.flatMap Step.bindings,
        registry.Proper named (stream.Taken last) owner binding
  | .full _, _, _, _, _, _ | .fails _ _, _, _, _, _, _ => by simp
  | .idles _ turn, within, owner, owned, placed, fits =>
      typed.takes_proper turn within owner owned placed fits
  | .advances _ turn _ rest, within, owner, owned, placed, fits => by
      have early := Nat.le_trans rest.shareOut.ordered within
      rw [List.flatMap_append]
      exact List.forall_mem_append.mpr ⟨typed.takes_proper turn early owner owned placed fits,
        typed.turns_proper rest within owner owned placed fits⟩
end

end Steps

end Registry

/-- A record takes bindings one after the other. All are for registered fields, none fails, and what
items are appended to is a list. -/
structure Shape.Receives (shape : Shape) (bindings : List Binding) (blank : Value) : Prop where
  registered : ∀ binding ∈ bindings, ∃ field ∈ shape.fields, binding.name = field.name
  collects : ∀ before name item after, bindings = before ++ .append name item :: after →
    ∃ reached items, Binding.applyAll before blank = .ok reached ∧
    reached.attribute? name = some (.list items)
  applied : ∃ filled, Binding.applyAll bindings blank = .ok filled

namespace Registry

section Match

variable {registry : Registry} {named : ShapeId → String → ShapeId → Prop} {env : Environment}
  {stream : TokenStream} {id : ShapeId} {root : Tree} {fuel : Nat} {state next : MatchState}
  {bindings : List Binding} {blank : Value}

theorem OfShape.receives {taken : Token → Prop} (whole : registry.OfShape named taken id blank)
    (wellFormed : (registry.shape id).WellFormed)
    (proper : ∀ binding ∈ bindings, registry.Proper named taken id binding) :
    (registry.shape id).Receives bindings blank := by
  constructor
  · intro binding inside
    cases proper binding inside with
    | assign here | append here => exact ⟨_, here, rfl⟩
  · intro before name item after split
    rw [split] at proper
    obtain ⟨early, late⟩ := List.forall_mem_append.mp proper
    obtain ⟨reached, applied, whole⟩ := whole.applyAll wellFormed early
    cases (List.forall_mem_cons.mp late).1 with
    | append here many =>
        obtain ⟨items, held, _⟩ := whole.list_of_many here many
        exact ⟨reached, items, applied, held⟩
  · obtain ⟨filled, applied, _⟩ := whole.applyAll wellFormed proper
    exact ⟨filled, applied⟩

/-- The shape that a name in the tree of another shape is resolved to in a match. It was found under
that name at some moment. -/
def Referred (history : List Operation) (env : Environment) (owner : ShapeId) (name : String)
    (id : ShapeId) : Prop :=
  Found history owner name id ∧ ∃ root slot, env.root owner = .ok root ∧
    root.targets[slot]? = some (.named name) ∧ env.resolve ⟨some owner, slot⟩ (.named name) = .ok id

/-- References, trees and new records are those of the shapes, whenever the shapes are used. -/
theorem Becomes.typed {history : List Operation} {used : Registry} {kinds : KindTable}
    (becomes : Becomes kinds (performAll {} history) used) (keeps : used.KeepsTo (Found history))
    (generated : ∀ id, ((performAll {} history).shape id).factory = none) :
    (performAll {} history).Typed (Referred history (used.environment kinds))
      (used.environment kinds) := by
  have known {id : ShapeId} {root : Tree} (made : (used.environment kinds).root id = .ok root) :
      id < (performAll {} history).shapes.length :=
    becomes.count ▸ known_of_root made
  constructor
  · exact known
  · exact fun made => (performAll_sound history _ (known made)).wellFormed
  · intro root id made
    have sound := (performAll_sound history id (known made)).becomes (becomes.shape id)
    obtain ⟨table, tree⟩ := sound.rootWith (environment_root_ok made)
    rw [← (becomes.shape id).fields, ← (becomes.shape id).name]
    exact Shape.ruleTree_fits tree
  · intro root target owner id slot made there resolved
    have means := keeps.means_of_resolve made there resolved
    cases target with
    | named name => exact ⟨means, root, slot, made, there, resolved⟩
    | shape direct name => exact means
  · intro root value id made new
    have sound := (performAll_sound history id (known made)).becomes (becomes.shape id)
    rw [← (becomes.shape id).fields, ← (becomes.shape id).name]
    exact Shape.fresh_ok ((becomes.shape id).factory.trans (generated id)) sound.wellFormed new
  · rfl

end Match

end Registry

namespace Phrase

open Registry

def text : SourceText := { content := ['a', ' ', 'b'] }

def phrase : Value := .entity (.record 0) "Phrase" none [("words", .list [word "a", word "b"])]

end Phrase

end RecordGrammar
