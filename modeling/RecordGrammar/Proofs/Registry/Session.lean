import RecordGrammar.Proofs.Parse.Stages
import RecordGrammar.Proofs.Registry.Memory

namespace RecordGrammar

open RecordGrammar.Source (SourceText)

/-! Sessions: whatever is done with shapes, one operation after the other.

Apart from the registration of a field, an operation does two things to a shape at most. It builds
the tree if there is none yet, and it closes the list of fields. All trees that one operation
builds, however deep the parse is that needs them, are built with the same names to capture tokens
by. -/

/-- What can be done. Trees are built on purpose or when a parse comes to need them. -/
inductive Operation where
  | addScanner (scanner : Scanner)
  | addScanRule (id : Nat) (rule : ScanRule)
  | addGrammar (name : String) (scanner parent : Option Nat)
  | addShape (name : String) (grammar scanner : Option Nat)
      (factory : Option (List (String × Value)))
  | register (id : ShapeId) (field : Field)
  | compile (id : ShapeId) (kinds : KindTable)
  | root (id : ShapeId) (scanner : Option Nat)
  | fresh (id : ShapeId)
  | construct (id : ShapeId) (values : List (String × Value))
  | parse (parser : Parser) (source : SourceText)
  | matchShape (parser : Parser) (text : List Char) (start : Int)
  | matchTree (tree : Tree) (scanner : Nat) (text : List Char) (target : Value)

namespace Registry

/-- The end of a registration: one that is refused changes nothing. -/
def attempted (registry : Registry) : Except Fault Registry → Except Fault Unit × Registry
  | .error fault => (.error fault, registry)
  | .ok next => (.ok (), next)

def Report.ending {α : Type} (report : Report α) : Except Fault Unit × Registry :=
  (report.result.map fun _ => (), report.registry)

/-- How an operation ends, and the registry afterwards. -/
def perform (registry : Registry) : Operation → Except Fault Unit × Registry
  | .addScanner scanner => (.ok (), (registry.addScanner scanner).1)
  | .addScanRule id rule => registry.attempted ((registry.addScanRule id rule).mapError .scanRule)
  | .addGrammar name scanner parent => (.ok (), (registry.addGrammar name scanner parent).1)
  | .addShape name grammar scanner factory =>
      registry.attempted
        (((registry.addShape { name, grammar, scanner, factory }).map (·.1)).mapError .scope)
  | .register id field => registry.attempted ((registry.register id field).mapError .field)
  | .compile id kinds => (registry.compile id kinds).ending
  | .root id scanner => (registry.treeOf id scanner).ending
  | .fresh id => (registry.fresh id).ending
  | .construct id values => (registry.construct id values).ending
  | .parse parser source => (registry.parse parser source).ending
  | .matchShape parser text start => (registry.matchShape parser text start).ending
  | .matchTree tree scanner text target => (registry.matchTree tree scanner text target).ending

/-- A registry after some operations, failed ones included. -/
def performAll (registry : Registry) (operations : List Operation) : Registry :=
  operations.foldl (fun reached operation => (reached.perform operation).2) registry

/-- The names that rules may capture tokens by, as far as an operation builds trees. -/
def kindsIn (registry : Registry) : Operation → KindTable
  | .compile _ kinds => kinds
  | .root id scanner => registry.kindsFor { shape := id, scanner }
  | .parse parser _ => registry.kindsFor parser
  | .matchShape parser _ _ => registry.kindsFor parser
  | .matchTree _ scanner _ _ => registry.kindsOf scanner
  | _ => []

theorem performAll_append (registry : Registry) (earlier later : List Operation) :
    registry.performAll (earlier ++ later) = (registry.performAll earlier).performAll later :=
  List.foldl_append

theorem performAll_concat (registry : Registry) (earlier : List Operation) (operation : Operation) :
    registry.performAll (earlier ++ [operation]) =
      ((registry.performAll earlier).perform operation).2 := by
  rw [performAll_append]
  rfl

end Registry

theorem Shape.ruleTree_congr {shape next : Shape} (name : next.name = shape.name)
    (fields : next.fields = shape.fields) (id : ShapeId) (kinds : KindTable) :
    next.ruleTree id kinds = shape.ruleTree id kinds := by
  simp only [ruleTree, name, fields]

/-- A shape before and after it is used: the tree may have been built, the list of fields closed. -/
structure Shape.Becomes (id : ShapeId) (kinds : KindTable) (shape next : Shape) : Prop where
  name : next.name = shape.name
  grammar : next.grammar = shape.grammar
  factory : next.factory = shape.factory
  fields : next.fields = shape.fields
  closed : shape.hasRecord = true → next.hasRecord = true
  tree : next.phase = shape.phase ∧ next.root = shape.root ∨
    shape.phase = .pending ∧ next.phase = .ready ∧ ∃ root, shape.ruleTree id kinds = .ok root ∧
    next.root = some root

namespace Shape.Becomes

variable {shape next last : Shape} {id : ShapeId} {kinds : KindTable}

theorem refl (id : ShapeId) (kinds : KindTable) (shape : Shape) : Becomes id kinds shape shape :=
  ⟨rfl, rfl, rfl, rfl, fun closed => closed, .inl ⟨rfl, rfl⟩⟩

theorem trans (first : Becomes id kinds shape next) (second : Becomes id kinds next last) :
    Becomes id kinds shape last where
  name := second.name.trans first.name
  grammar := second.grammar.trans first.grammar
  factory := second.factory.trans first.factory
  fields := second.fields.trans first.fields
  closed := fun closed => second.closed (first.closed closed)
  tree := by
    rcases first.tree with ⟨samePhase, sameRoot⟩ | ⟨pending, ready, root, made, stored⟩
    · rcases second.tree with ⟨phase, kept⟩ | ⟨pending, ready, root, made, stored⟩
      · exact .inl ⟨phase.trans samePhase, kept.trans sameRoot⟩
      · have same := ruleTree_congr first.name first.fields id kinds
        exact .inr ⟨samePhase.symm.trans pending, ready, root, same.symm.trans made, stored⟩
    · rcases second.tree with ⟨phase, kept⟩ | ⟨pendingAgain, _⟩
      · exact .inr ⟨pending, phase.trans ready, root, made, kept.trans stored⟩
      · cases ready.symm.trans pendingAgain

theorem scanner (id : ShapeId) (kinds : KindTable) (shape : Shape) (scanner : Option Nat) :
    Becomes id kinds shape { shape with scanner } :=
  { refl id kinds shape with }

theorem remember (id : ShapeId) (kinds : KindTable) (shape : Shape) (slot : Nat)
    (target : ShapeId) :
    Becomes id kinds shape (shape.remember slot target) := by
  unfold Shape.remember
  split
  · exact refl id kinds shape
  · exact { refl id kinds shape with }

theorem close (id : ShapeId) (kinds : KindTable) (shape : Shape) :
    Becomes id kinds shape shape.close := by
  unfold Shape.close
  split
  · exact { refl id kinds shape with closed := fun _ => rfl }
  · exact refl id kinds shape

theorem compile (id : ShapeId) (kinds : KindTable) (shape : Shape) :
    Becomes id kinds shape (shape.compile id kinds).shape := by
  cases phase : shape.phase with
  | ready =>
      rw [compile_of_ready phase]
      exact refl id kinds shape
  | compiling =>
      simp only [Shape.compile, phase]
      exact refl id kinds shape
  | pending =>
      cases made : shape.ruleTree id kinds with
      | error error =>
          obtain ⟨_, tokens, same⟩ := compile_of_error phase made
          rw [same]
          exact { refl id kinds shape with }
      | ok root =>
          obtain ⟨_, tokens, same⟩ := compile_of_ok phase made
          rw [same]
          exact { refl id kinds shape with tree := .inr ⟨phase, rfl, root, made, rfl⟩ }

end Shape.Becomes

namespace Registry

theorem treeOf_eq (registry : Registry) (id : ShapeId) (scanner : Option Nat) :
    registry.treeOf id scanner =
      let compiled := registry.compiledFor { shape := id, scanner }
      { compiled with
        result := do
          compiled.result
          match (compiled.registry.shape id).root with
          | some root => return root
          | none => throw .noTree } := by
  cases scanner <;> rfl

/-- The events that are left behind when shapes are matched: a record is made, or an attempt notes
something. -/
inductive Noted (registry : Registry) (kinds : KindTable) : Event → Prop
  | made (id : ShapeId) : Noted registry kinds (.made id)
  | attempted {event : Event} {site : Site} {tree : Tree} (weight : Nat) (stream : TokenStream)
      (complete : Bool) (cursor : Cursor)
      (placed : Tree.Placed (fun id root => (registry.environment kinds).root id = .ok root) site
        tree.targets)
      (inside : event ∈
        (tree.attempt (registry.environment kinds) weight stream complete site { cursor }).trace) :
      Noted registry kinds event

/-- A property of registries that outlasts every use of their shapes with certain names. -/
structure Lasting (kinds : KindTable) (holds : Registry → Prop) : Prop where
  asks : ∀ {registry : Registry}, holds registry → ∀ id, holds (registry.scannerOf id).1
  compiles : ∀ {registry : Registry}, holds registry →
    ∀ id, holds (registry.compile id kinds).registry
  reads : ∀ {registry : Registry}, holds registry →
    ∀ id reader, holds (registry.leaveReader id reader)
  settles : ∀ {registry : Registry}, holds registry →
    ∀ events, (∀ event ∈ events, registry.Noted kinds event) →
    holds (registry.settle kinds events).1

namespace Lasting

variable {registry : Registry} {kinds : KindTable} {holds : Registry → Prop} {parser : Parser}
  {scanner : Nat}

theorem scannerFor (lasting : Lasting kinds holds) (held : holds registry) (parser : Parser) :
    holds (registry.scannerFor parser).1 := by
  unfold Registry.scannerFor
  split
  · exact held
  · exact lasting.asks held parser.shape

theorem compiledFor (lasting : Lasting (registry.kindsFor parser) holds) (held : holds registry) :
    holds (registry.compiledFor parser).registry :=
  lasting.compiles (lasting.scannerFor held parser) parser.shape

theorem scannedFor (lasting : Lasting (registry.kindsFor parser) holds) (held : holds registry)
    (source : SourceText) :
    holds (registry.scannedFor parser source) :=
  lasting.reads (lasting.compiledFor held) _ _

theorem treeOf {id : ShapeId} {scanner : Option Nat}
    (lasting : Lasting (registry.kindsFor { shape := id, scanner }) holds) (held : holds registry) :
    holds (registry.treeOf id scanner).registry := by
  rw [treeOf_eq]
  exact lasting.compiledFor held

theorem parse (lasting : Lasting (registry.kindsFor parser) holds) (held : holds registry)
    (source : SourceText) :
    holds (registry.parse parser source).registry := by
  have scanned := lasting.scannedFor held source
  rw [parse_eq]
  split
  · exact lasting.compiledFor held
  · split
    · exact scanned
    · apply lasting.settles scanned
      intro event noted
      simp only [read] at noted
      split at noted
      · simp at noted
      · rename_i root made
        rcases conclude_events _ _ _ _ _ event noted with rfl | inside
        · exact .made parser.shape
        · exact .attempted _ _ _ _ (.root made) inside

theorem matchShape (lasting : Lasting (registry.kindsFor parser) holds) (held : holds registry)
    (text : List Char) (start : Int) : holds (registry.matchShape parser text start).registry := by
  have scanned := lasting.reads (lasting.scannerFor held parser) (registry.scannerFor parser).2
    (((registry.scannerFor parser).1.scanner (registry.scannerFor parser).2).scan text).reader
  have compiled := lasting.compiles scanned parser.shape
  simp only [Registry.matchShape, scanText]
  split
  · exact scanned
  · split
    · exact scanned
    · split
      · exact compiled
      · split
        · exact compiled
        · rename_i root made
          apply lasting.settles compiled
          intro event noted
          rw [applyOutcome_events] at noted
          rcases List.mem_append.mp noted with early | last
          · exact .attempted _ _ _ _ (.root made) (List.mem_reverse.mp early)
          · unfold eventsToMake at last
            split at last
            · rw [List.mem_singleton.mp last]
              exact .made parser.shape
            · simp at last

theorem matchTree (lasting : Lasting (registry.kindsOf scanner) holds) (held : holds registry)
    (tree : Tree) (text : List Char) (target : Value) :
    holds (registry.matchTree tree scanner text target).registry := by
  have scanned := lasting.reads held scanner ((registry.scanner scanner).scan text).reader
  simp only [Registry.matchTree, scanText]
  split
  · exact scanned
  · apply lasting.settles scanned
    intro event noted
    rw [applyOutcome_events] at noted
    refine .attempted _ _ _ _ ?_ (List.mem_reverse.mp noted)
    intro owner owned
    cases owned

end Lasting

/-- A registry before and after its shapes are used. -/
structure Becomes (kinds : KindTable) (registry next : Registry) : Prop where
  count : next.shapes.length = registry.shapes.length
  shape : ∀ id, (registry.shape id).Becomes id kinds (next.shape id)

namespace Becomes

variable {registry next last : Registry} {kinds : KindTable}

theorem refl (kinds : KindTable) (registry : Registry) : Becomes kinds registry registry :=
  ⟨rfl, fun id => .refl id kinds _⟩

theorem trans (first : Becomes kinds registry next) (second : Becomes kinds next last) :
    Becomes kinds registry last :=
  ⟨second.count.trans first.count, fun id => (first.shape id).trans (second.shape id)⟩

theorem setShape (registry : Registry) {id : ShapeId} {shape : Shape}
    (becomes : (registry.shape id).Becomes id kinds shape) :
    Becomes kinds registry (registry.setShape id shape) where
  count := List.length_set
  shape := fun place => by
    rw [shape_setShape]
    split
    · rename_i here
      exact here.1 ▸ becomes
    · exact .refl place kinds _

theorem scannerOf (kinds : KindTable) (registry : Registry) (id : ShapeId) :
    Becomes kinds registry (registry.scannerOf id).1 := by
  obtain ⟨_, _, asked⟩ | ⟨_, _, _, asked⟩ | ⟨_, _, asked⟩ :=
    registry.scannerOf_cases id <;> rw [asked]
  · exact refl kinds registry
  · exact setShape registry (.scanner id kinds _ _)
  · have added : Becomes kinds registry (registry.addScanner .standard).1 :=
      ⟨rfl, fun place => .refl place kinds _⟩
    exact added.trans (setShape _ (.scanner id kinds _ _))

theorem compile (kinds : KindTable) (registry : Registry) (id : ShapeId) :
    Becomes kinds registry (registry.compile id kinds).registry :=
  setShape registry (.compile id kinds _)

theorem leaveReader (kinds : KindTable) (registry : Registry) (id : Nat) (reader : Reader) :
    Becomes kinds registry (registry.leaveReader id reader) :=
  ⟨rfl, fun place => .refl place kinds _⟩

theorem settleEvent (kinds : KindTable) (registry : Registry) (event : Event) :
    Becomes kinds registry (registry.settleEvent kinds event).1 := by
  match event with
  | .reached ⟨some owner, slot⟩ id =>
      exact (setShape registry (.remember owner kinds _ slot id)).trans (compile kinds _ id)
  | .reached ⟨none, slot⟩ id => exact compile kinds registry id
  | .made id => exact setShape registry (.close id kinds _)

theorem settle (kinds : KindTable) (registry : Registry) (events : List Event) :
    Becomes kinds registry (registry.settle kinds events).1 := by
  induction events generalizing registry with
  | nil => exact refl kinds registry
  | cons event rest ih => exact (settleEvent kinds registry event).trans (ih _)

theorem lasting (kinds : KindTable) (registry : Registry) :
    Lasting kinds (Becomes kinds registry) where
  asks := fun becomes id => becomes.trans (scannerOf kinds _ id)
  compiles := fun becomes id => becomes.trans (compile kinds _ id)
  reads := fun becomes id reader => becomes.trans (leaveReader kinds _ id reader)
  settles := fun becomes events _ => becomes.trans (settle kinds _ events)

end Becomes

/-- What an operation does to the shapes: they are used, one of them is given a field, or one is
added. -/
theorem perform_cases (registry : Registry) (operation : Operation) :
    Becomes (registry.kindsIn operation) registry (registry.perform operation).2 ∨
      (∃ place field shape, operation = .register place field ∧
        (registry.shape place).register field = .ok shape ∧
        (registry.perform operation).2 = registry.setShape place shape) ∨
      ∃ name grammar scanner factory scopes, operation = .addShape name grammar scanner factory ∧
        (registry.perform operation).2 =
          { registry with
            shapes := registry.shapes ++ [{ name, grammar, scanner, factory }], scopes } := by
  cases operation with
  | addScanner scanner => exact .inl ⟨rfl, fun place => .refl place _ _⟩
  | addScanRule rules rule =>
      simp only [perform, addScanRule]
      cases (registry.scanner rules).addRule rule with
      | error error => exact .inl (.refl _ registry)
      | ok scanner => exact .inl ⟨rfl, fun place => .refl place _ _⟩
  | addGrammar name scanner parent =>
      refine .inl ?_
      simp only [perform, addGrammar]
      cases scanner <;> cases parent.bind (registry.grammars[·]?) <;>
        exact ⟨rfl, fun place => .refl place _ _⟩
  | addShape name grammar scanner factory =>
      simp only [perform]
      cases added : registry.addShape { name, grammar, scanner, factory } with
      | error error => exact .inl (.refl _ registry)
      | ok more =>
          obtain ⟨next, id⟩ := more
          obtain ⟨_, scopes, same⟩ := addShape_ok added
          exact .inr (.inr ⟨name, grammar, scanner, factory, scopes, rfl, same⟩)
  | register place field =>
      simp only [perform, register]
      cases accepted : (registry.shape place).register field with
      | error error => exact .inl (.refl _ registry)
      | ok shape => exact .inr (.inl ⟨place, field, shape, rfl, accepted, rfl⟩)
  | compile place kinds => exact .inl (.compile kinds registry place)
  | root place scanner => exact .inl ((Becomes.lasting _ registry).treeOf (.refl _ registry))
  | fresh place => exact .inl (.setShape registry (.close place _ _))
  | construct place values => exact .inl (.setShape registry (.close place _ _))
  | parse parser source => exact .inl ((Becomes.lasting _ registry).parse (.refl _ registry) source)
  | matchShape parser text start =>
      exact .inl ((Becomes.lasting _ registry).matchShape (.refl _ registry) text start)
  | matchTree tree scanner text target =>
      exact .inl ((Becomes.lasting _ registry).matchTree (.refl _ registry) tree text target)

/-- One operation, as a shape sees it: it is used, or it is given a field. -/
theorem perform_step {registry : Registry} {id : ShapeId} (known : id < registry.shapes.length)
    (operation : Operation) :
    id < (registry.perform operation).2.shapes.length ∧
      ((registry.shape id).Becomes id (registry.kindsIn operation)
        ((registry.perform operation).2.shape id) ∨ ∃ field, operation = .register id field ∧
          (registry.shape id).register field = .ok ((registry.perform operation).2.shape id)) := by
  rcases registry.perform_cases operation with
    becomes | ⟨place, field, shape, rfl, accepted, same⟩ |
      ⟨name, grammar, scanner, factory, scopes, rfl, same⟩
  · rw [becomes.count]
    exact ⟨known, .inl (becomes.shape id)⟩
  · rw [same, shape_setShape, setShape, List.length_set]
    refine ⟨known, ?_⟩
    by_cases here : place = id
    · subst here
      rw [if_pos ⟨rfl, known⟩]
      exact .inr ⟨field, rfl, accepted⟩
    · rw [if_neg fun both => here both.1]
      exact .inl (.refl id _ _)
  · rw [same, shape_append, if_neg (Nat.ne_of_lt known), List.length_append]
    exact ⟨Nat.lt_add_right _ known, .inl (.refl id _ _)⟩

/-- A shape that an operation adds has nothing yet. -/
theorem perform_new {registry : Registry} {id : ShapeId} {operation : Operation}
    (unknown : ¬ id < registry.shapes.length)
    (known : id < (registry.perform operation).2.shapes.length) :
    ∃ name grammar scanner factory,
      (registry.perform operation).2.shape id = { name, grammar, scanner, factory } := by
  rcases registry.perform_cases operation with
    becomes | ⟨place, field, shape, rfl, accepted, same⟩ |
      ⟨name, grammar, scanner, factory, scopes, rfl, same⟩
  · exact absurd (becomes.count ▸ known) unknown
  · rw [same, setShape, List.length_set] at known
    exact absurd known unknown
  · rw [same, List.length_append, List.length_singleton] at known
    have last : id = registry.shapes.length :=
      Nat.le_antisymm (Nat.le_of_lt_succ known) (Nat.le_of_not_lt unknown)
    rw [same, shape_append, if_pos last]
    exact ⟨name, grammar, scanner, factory, rfl⟩

/-- What using a shape keeps, and registering a field too, holds of all shapes if it holds of new
ones. -/
theorem performAll_each {registry : Registry} (holds : ShapeId → Shape → Prop)
    (blank : ∀ id name grammar scanner factory, holds id { name, grammar, scanner, factory })
    (used : ∀ id kinds shape next, holds id shape → shape.Becomes id kinds next → holds id next)
    (extended : ∀ id field shape next, holds id shape → shape.register field = .ok next →
      holds id next)
    (each : ∀ id, id < registry.shapes.length → holds id (registry.shape id))
    (operations : List Operation) :
    ∀ id, id < (registry.performAll operations).shapes.length →
      holds id ((registry.performAll operations).shape id) := by
  induction operations generalizing registry with
  | nil => exact each
  | cons operation rest ih =>
      apply ih
      intro id knownNext
      by_cases known : id < registry.shapes.length
      · obtain ⟨_, becomes | ⟨field, _, added⟩⟩ := perform_step known operation
        · exact used id _ _ _ (each id known) becomes
        · exact extended id field _ _ (each id known) added
      · obtain ⟨name, grammar, scanner, factory, new⟩ := perform_new known knownNext
        rw [new]
        exact blank id name grammar scanner factory

end Registry

end RecordGrammar
