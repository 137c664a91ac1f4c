import RecordGrammar.Proofs.Parse.Failure
import RecordGrammar.Proofs.Registry.Memory

namespace RecordGrammar

open RecordGrammar.Source (SourceText)

/-! Parses do not influence each other.

What a registry remembers of earlier parses is what a parse would find out by itself, so a run among
shapes in use goes alongside a run among shapes just registered. The events of such a run are
honest, so what it leaves behind is again no more than that. -/

/-- How instances are made depends on what was registered. -/
theorem Shape.fresh_congr {shape other : Shape} (name : shape.name = other.name)
    (factory : shape.factory = other.factory) (fields : shape.fields = other.fields)
    (id : ShapeId) :
    shape.fresh id = other.fresh id := by
  obtain ⟨_, _, _, _, _, _, _, _, _, _⟩ := shape
  obtain ⟨_, _, _, _, _, _, _, _, _, _⟩ := other
  cases name
  cases factory
  cases fields
  rfl

namespace Shape.Retains

variable {fresh : Registry} {kinds others : KindTable} {id : ShapeId} {shape : Shape}

/-- What a slot was found to mean, it is registered to mean. -/
theorem recalls (retains : shape.Retains fresh kinds id) {slot : Nat} {found : ShapeId}
    (recalled : shape.resolved? slot = some found) :
    ∃ root target, (fresh.shape id).ruleTree id kinds = .ok root ∧
      root.targets[slot]? = some target ∧ fresh.resolve ⟨some id, slot⟩ target = .ok found := by
  obtain ⟨ready, listed⟩ := resolved?_eq_some recalled
  rcases retains.memory with pending | ⟨_, root, made, _, remembered⟩
  · cases ready.symm.trans pending
  · obtain ⟨target, there, means⟩ := remembered _ listed
    exact ⟨root, target, made, there, means⟩

theorem compile_error (retains : shape.Retains fresh kinds id) (perm : others.Perm kinds)
    (distinct : others.Distinct) :
    (shape.compile id others).error =
      match (fresh.shape id).ruleTree id kinds with
      | .error error => some error
      | .ok _ => none := by
  have same := retains.ruleTree_eq perm distinct
  rcases retains.memory with pending | ⟨ready, root, made, _⟩
  · rw [← same]
    cases made : shape.ruleTree id others with
    | error error => exact (compile_of_error pending made).1
    | ok root => exact (compile_of_ok pending made).1
  · rw [compile_of_ready ready, made]

theorem rootWith_eq (retains : shape.Retains fresh kinds id) (perm : others.Perm kinds)
    (distinct : others.Distinct) :
    shape.rootWith id others = ((fresh.shape id).ruleTree id kinds).mapError .rule := by
  have same := retains.ruleTree_eq perm distinct
  have failed := retains.compile_error perm distinct
  unfold rootWith
  simp only
  cases made : (fresh.shape id).ruleTree id kinds with
  | error error =>
      rw [made] at failed
      simp only [failed, Except.mapError]
  | ok root =>
      rw [made] at failed
      have stored : (shape.compile id others).shape.root = some root := by
        rcases retains.memory with pending | ⟨ready, other, madeToo, stored, _⟩
        · obtain ⟨_, tokens, compiled⟩ := compile_of_ok pending (same.trans made)
          rw [compiled]
        · cases made.symm.trans madeToo
          rw [compile_of_ready ready]
          exact stored
      simp only [failed, stored, Except.mapError]

end Shape.Retains

namespace Registry

/-- Where a tree may stand: on its own, or in the tree of the shape that it belongs to, behind as
many references as its site says. -/
def Stands (fresh : Registry) (kinds : KindTable) (site : Site) (tree : Tree) : Prop :=
  ∀ owner, site.owner = some owner → ∃ root, (fresh.shape owner).ruleTree owner kinds = .ok root ∧
    tree.targets <+: root.targets.drop site.slot

section Stands

variable {fresh : Registry} {kinds : KindTable}

/-- A reference stands in the slot of the tree that its site tells. -/
theorem Stands.slot {owner : ShapeId} {slot : Nat} {target : ShapeRef} {field : Field}
    (stands : Stands fresh kinds ⟨some owner, slot⟩ (.reference target field)) :
    ∃ root, (fresh.shape owner).ruleTree owner kinds = .ok root ∧
      root.targets[slot]? = some target :=
  Tree.Placed.slot stands

end Stands

namespace Retains

variable {fresh used : Registry} {kinds others : KindTable}

theorem roots_eq (retains : fresh.Retains kinds used) (perm : others.Perm kinds)
    (distinct : others.Distinct) :
    used.roots others = fresh.shapes.mapIdx fun id _ =>
      ((fresh.shape id).ruleTree id kinds).mapError .rule := by
  refine List.ext_getElem? fun id => ?_
  have each := (retains.shape id).rootWith_eq perm distinct
  simp only [roots, List.getElem?_mapIdx]
  by_cases known : id < used.shapes.length
  · rw [List.getElem?_eq_getElem known, List.getElem?_eq_getElem (retains.count ▸ known),
      Option.map_some, Option.map_some, ← each]
    simp only [Registry.shape, List.getElem?_eq_getElem known, Option.getD_some]
  · rw [List.getElem?_eq_none (by omega), List.getElem?_eq_none (by rw [← retains.count]; omega)]
    rfl

/-- A reference means the same with a memory of what it was found to mean as without. -/
theorem resolve_eq (retains : fresh.Retains kinds used)
    (pending : fresh.EachShape fun shape => shape.phase = .pending) {site : Site}
    {target : ShapeRef} {field : Field}
    (stands : Stands fresh kinds site (.reference target field)) :
    used.resolve site target = fresh.resolve site target := by
  have forgetful (owner : ShapeId) (slot : Nat) : (fresh.shape owner).resolved? slot = none := by
    simp [Shape.resolved?, pending owner]
  obtain ⟨owner, slot⟩ := site
  cases owner with
  | none => simp only [resolve, Option.bind_none]
  | some owner =>
      have keeps := retains.shape owner
      cases recalled : (used.shape owner).resolved? slot with
      | none =>
          simp only [resolve, Option.bind_some, recalled, forgetful, keeps.name, keeps.grammar,
            lookup, scopeOf, retains.scopes, retains.grammars]
      | some found =>
          -- The slot belongs to the tree that the memory is about, and this reference is the one in
          -- the slot.
          obtain ⟨root, made, here⟩ := stands.slot
          obtain ⟨other, meant, madeToo, there, means⟩ := keeps.recalls recalled
          cases made.symm.trans madeToo
          cases here.symm.trans there
          rw [means]
          simp only [resolve, Option.bind_some, recalled]

theorem roots_agree (retains : fresh.Retains kinds used)
    (pending : fresh.EachShape fun shape => shape.phase = .pending) (perm : others.Perm kinds)
    (distinct : others.Distinct) : used.roots others = fresh.roots kinds := by
  rw [retains.roots_eq perm distinct]
  exact ((refl pending kinds).roots_eq (.refl kinds) ((perm.map _).nodup distinct)).symm

theorem fresh_agree (retains : fresh.Retains kinds used) :
    (used.environment others).fresh = (fresh.environment kinds).fresh :=
  funext fun id =>
    have keeps := retains.shape id
    Shape.fresh_congr keeps.name keeps.factory keeps.fields id

end Retains

/-- The trees of shapes just registered stand where they should. -/
theorem reaches_stands {fresh : Registry} {kinds : KindTable}
    (pending : fresh.EachShape fun shape => shape.phase = .pending) (distinct : kinds.Distinct) :
    Tree.Reaches (fresh.environment kinds) (Stands fresh kinds) where
  members := Tree.Placed.inRow
  branches := Tree.Placed.inRow
  inner := id
  root := by
    rintro id tree made owner ⟨⟩
    have made := environment_root_ok made
    rw [((Retains.refl pending kinds).shape id).rootWith_eq (.refl kinds) distinct] at made
    cases tree_made : (fresh.shape id).ruleTree id kinds with
    | error error => simp [tree_made, Except.mapError] at made
    | ok root =>
        simp only [tree_made, Except.mapError, Except.ok.injEq] at made
        subst made
        exact ⟨root, rfl, [], List.append_nil _⟩

/-- The same state, after honest events only. -/
def Agrees (fresh : Registry) (kinds : KindTable) (state other : MatchState) : Prop :=
  state = other ∧ ∀ event ∈ state.trace, event.Honest fresh kinds

/-- A run among shapes in use goes the way of a run among shapes just registered. -/
theorem Retains.alongside {fresh used : Registry} {kinds others : KindTable}
    (retains : fresh.Retains kinds used)
    (pending : fresh.EachShape fun shape => shape.phase = .pending) (perm : others.Perm kinds)
    (distinct : others.Distinct) (stream : TokenStream) :
    Tree.Alongside (fresh.environment kinds) (used.environment others) stream (Stands fresh kinds)
      (Agrees fresh kinds) fun _ => True := by
  apply Tree.alongside_sameAfter stream (reaches_stands pending ((perm.map _).nodup distinct))
  · exact fun site target field stands => (retains.resolve_eq pending stands).symm
  · simp only [environment, retains.roots_agree pending perm distinct]
  · exact retains.fresh_agree.symm
  · rfl
  · intro site target field id stands resolved
    obtain ⟨owner, slot⟩ := site
    cases owner with
    | none => trivial
    | some owner =>
        obtain ⟨root, made, there⟩ := stands.slot
        exact ⟨root, target, made, there, resolved⟩
  · exact fun _ => trivial

theorem conclude_honest {fresh : Registry} {kinds : KindTable} {left right : Outcome}
    (parallel : left.Parallel (Agrees fresh kinds) (fun _ => True) right) (env : Environment)
    (shape : ShapeId) (source : SourceText) (stream : TokenStream) :
    ∀ event ∈ (conclude env shape source stream left).2.1, event.Honest fresh kinds := by
  intro event held
  rcases conclude_events env shape source stream left event held with rfl | held
  · trivial
  · exact parallel.told_of_sameAfter event held

section Parse

variable {fresh used : Registry} {kinds others : KindTable}

theorem Retains.read_eq (retains : fresh.Retains kinds used)
    (pending : fresh.EachShape fun shape => shape.phase = .pending) (perm : others.Perm kinds)
    (distinct : others.Distinct) (parser : Parser) (source : SourceText) (stream : TokenStream) :
    used.read parser source others stream = fresh.read parser source kinds stream ∧
      ∀ event ∈ (used.read parser source others stream).2.1, event.Honest fresh kinds := by
  have alongside := retains.alongside pending perm distinct stream
  have trees := retains.roots_agree pending perm distinct
  have weights : used.weight others = fresh.weight kinds := by simp only [weight, trees]
  simp only [read, ← alongside.rootEq, weights]
  cases made : (fresh.environment kinds).root parser.shape with
  | error fault => simp
  | ok root =>
      have start : Agrees fresh kinds {} {} := ⟨rfl, by simp⟩
      have parallel :=
        Tree.attempt_parallel alongside (fresh.weight kinds) parser.complete
          (alongside.root made) start
      have same := parallel.eq_of_sameAfter
      simp only [← same]
      refine ⟨?_, conclude_honest parallel _ _ _ _⟩
      unfold conclude
      rw [← alongside.freshEq, ← alongside.fillEq]

theorem Retains.scannerFor (retains : fresh.Retains kinds used) (parser : Parser) :
    fresh.Retains kinds (used.scannerFor parser).1 := by
  unfold Registry.scannerFor
  split
  · exact retains
  · exact retains.scannerOf parser.shape

/-- A parse is given the scanner that it would be given at first. -/
theorem Retains.scanner_scannerFor (retains : fresh.Retains kinds used) (parser : Parser) :
    (used.scannerFor parser).1.scanner (used.scannerFor parser).2 =
      (fresh.scannerFor parser).1.scanner (fresh.scannerFor parser).2 := by
  unfold Registry.scannerFor
  split
  · exact retains.scanner _
  · have same := (retains.shape parser.shape).scanner
    rw [scannerOf_scanner, scannerOf_scanner, scanner_scannerOf, scanner_scannerOf, ← same]
    simp only [scannerOfShape, retains.grammars, retains.scanner]

theorem Retains.kindsFor_eq (retains : fresh.Retains kinds used) (parser : Parser) :
    used.kindsFor parser = fresh.kindsFor parser :=
  congrArg Scanner.kinds (retains.scanner_scannerFor parser)

theorem Retains.scanFor_eq (retains : fresh.Retains kinds used) (parser : Parser)
    (source : SourceText) :
    used.scanFor parser source = fresh.scanFor parser source :=
  congrArg (Scanner.scan · source.content) (retains.scanner_scannerFor parser)

theorem Retains.compiledFor (retains : fresh.Retains kinds used) {parser : Parser}
    (perm : (used.kindsFor parser).Perm kinds) (distinct : (used.kindsFor parser).Distinct) :
    fresh.Retains kinds (used.compiledFor parser).registry ∧
      (used.compiledFor parser).result =
        match (fresh.shape parser.shape).ruleTree parser.shape kinds with
        | .error error => .error (.rule error)
        | .ok _ => .ok () := by
  have asked := retains.scannerFor parser
  refine ⟨asked.compile perm distinct parser.shape, ?_⟩
  have failed := (asked.shape parser.shape).compile_error perm distinct
  simp only [Registry.compiledFor, Registry.compile, failed]
  cases (fresh.shape parser.shape).ruleTree parser.shape kinds <;> rfl

theorem Retains.scannedFor (retains : fresh.Retains kinds used) {parser : Parser}
    (perm : (used.kindsFor parser).Perm kinds) (distinct : (used.kindsFor parser).Distinct)
    (source : SourceText) :
    fresh.Retains kinds (used.scannedFor parser source) :=
  (retains.compiledFor perm distinct).1.leaveReader _ _

/-- What a parse comes to, told from what was registered. -/
def outcomeOf (fresh : Registry) (kinds : KindTable) (parser : Parser) (source : SourceText) :
    Except Fault Value × String :=
  match (fresh.shape parser.shape).ruleTree parser.shape kinds with
  | .error error => (.error (.rule error), "")
  | .ok _ =>
      match streamOf (fresh.scanFor parser source) with
      | .error fault => reportScan source fault
      | .ok stream =>
          let (result, _, log) := fresh.read parser source kinds stream
          (result, log)

/-- One parse, among whatever there is by then: it comes to what was registered and leaves behind no
more than could be found out again. -/
theorem Retains.parse (retains : fresh.Retains kinds used)
    (pending : fresh.EachShape fun shape => shape.phase = .pending) {parser : Parser}
    (perm : (used.kindsFor parser).Perm kinds) (distinct : (used.kindsFor parser).Distinct)
    (source : SourceText) :
    fresh.Retains kinds (used.parse parser source).registry ∧
      ((used.parse parser source).result, (used.parse parser source).log) =
        outcomeOf fresh kinds parser source := by
  obtain ⟨compiled, result⟩ := retains.compiledFor perm distinct
  have scanned := retains.scannedFor perm distinct source
  rw [parse_eq, result, retains.scanFor_eq parser source, outcomeOf]
  cases (fresh.shape parser.shape).ruleTree parser.shape kinds with
  | error error => exact ⟨compiled, rfl⟩
  | ok root =>
      cases streamOf (fresh.scanFor parser source) with
      | error fault => exact ⟨scanned, rfl⟩
      | ok stream =>
          obtain ⟨same, honest⟩ := scanned.read_eq pending perm distinct parser source stream
          simp only
          refine ⟨scanned.settle perm distinct honest, ?_⟩
          rw [same]

end Parse

/-- A registry after some parses, one after the other. -/
def parseAll (registry : Registry) (history : List (Parser × SourceText)) : Registry :=
  history.foldl (fun used earlier => (used.parse earlier.1 earlier.2).registry) registry

section History

variable {fresh used : Registry} {kinds : KindTable}

theorem Registered.distinct_kindsFor (registered : Registered fresh) (parser : Parser) :
    (fresh.kindsFor parser).Distinct := by
  unfold kindsFor kindsOf Registry.scannerFor
  split
  · exact registered.distinct _
  · rw [scannerOf_scanner]
    exact registered.distinct _

theorem Retains.parseAll (retains : fresh.Retains kinds used) (registered : Registered fresh)
    {history : List (Parser × SourceText)}
    (sameNames : ∀ earlier ∈ history, (fresh.kindsFor earlier.1).Perm kinds) :
    fresh.Retains kinds (used.parseAll history) := by
  induction history generalizing used with
  | nil => exact retains
  | cons earlier later ih =>
      have names := retains.kindsFor_eq earlier.1
      have perm := names ▸ sameNames earlier (by simp)
      have distinct := names ▸ registered.distinct_kindsFor earlier.1
      exact ih (retains.parse registered.pending perm distinct earlier.2).1
        fun next held => sameNames next (by simp [held])

end History

/-- A parse answers as if it were the first, whatever was parsed before it with the same names. -/
theorem parse_independent {registry : Registry} (registered : registry.Registered)
    {history : List (Parser × SourceText)} {parser : Parser}
    (sameNames : ∀ earlier ∈ history, (registry.kindsFor earlier.1).Perm (registry.kindsFor parser))
    (source : SourceText) :
    ((registry.parseAll history).parse parser source).result =
      (registry.parse parser source).result ∧
      ((registry.parseAll history).parse parser source).log =
        (registry.parse parser source).log := by
  have untouched := Retains.refl registered.pending (registry.kindsFor parser)
  have used := untouched.parseAll registered sameNames
  have distinct := registered.distinct_kindsFor parser
  have names := used.kindsFor_eq parser
  -- Neither parse is compared with the other: both come to what was registered.
  have before := (untouched.parse registered.pending (.refl _) distinct source).2
  have after := (used.parse registered.pending (by rw [names]) (by rwa [names]) source).2
  exact Prod.mk.inj (after.trans before.symm)

end Registry

namespace Nest

/-- A text that ends too early, and one that is read. -/
def history : List (Parser × SourceText) :=
  [({ shape := 0 }, { content := ['('] }),
    ({ shape := 0, complete := false }, { content := ['(', ')'] })]

set_option maxRecDepth 4000 in
theorem unopened_independent :
    registry.Registered ∧
      (∀ earlier ∈ history, (registry.kindsFor earlier.1).Perm (registry.kindsFor { shape := 0 })) ∧
      ((registry.parseAll history).parse { shape := 0 } { content := [')'] }).result =
        .error (.noMatch unopened) := by
  have sameNames : ∀ earlier ∈ history,
      (registry.kindsFor earlier.1).Perm (registry.kindsFor { shape := 0 }) := by
    intro earlier held
    rcases List.mem_cons.mp held with rfl | held
    · exact .refl _
    · cases List.mem_singleton.mp held
      exact .refl _
  have first : (registry.parse { shape := 0 } { content := [')'] }).result =
      .error (.noMatch unopened) := by cbv
  exact ⟨registered, sameNames,
    (Registry.parse_independent registered sameNames { content := [')'] }).1.trans first⟩

end Nest

end RecordGrammar
