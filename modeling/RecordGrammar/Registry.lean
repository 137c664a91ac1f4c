import RecordGrammar.Match.Run
import RecordGrammar.Shape.Instance

namespace RecordGrammar

/-! The registry: scanners, grammars and shapes, each known by its number.

A grammar is a scope of shapes with a scanner; inside another grammar it sees that one's shapes as
well. Scanners remember how far they have read, so two shapes may share one.
-/

/-- A scanner together with the text that it is reading. -/
structure ScannerEntry where
  scanner : Scanner
  reader : Reader := Reader.start []

/-- A grammar: its name, its scanner and the scope of its shapes. -/
structure Grammar where
  name : String
  scanner : Nat
  scope : Nat
deriving Repr

/-- Everything that has been registered. -/
structure Registry where
  scanners : List ScannerEntry := []
  grammars : List Grammar := []
  scopes : Scopes String ShapeId := []
  shapes : List Shape := []

namespace Registry

/-- A registry of one grammar with its scanner and its shapes. -/
def ofGrammar (name : String) (scanner : Scanner) (shapes : List Shape) : Registry where
  scanners := [{ scanner }]
  grammars := [{ name, scanner := 0, scope := 0 }]
  scopes := [{ place := some name, parent := none
               entries := shapes.mapIdx fun id shape => (shape.name, id) }]
  shapes := shapes.map fun shape => { shape with grammar := some 0 }

variable (registry : Registry)

def addScanner (scanner : Scanner) : Registry × Nat :=
  ({ registry with scanners := registry.scanners ++ [{ scanner }] }, registry.scanners.length)

def scanner (id : Nat) : Scanner :=
  ((registry.scanners[id]?).map (·.scanner)).getD Scanner.standard

def reader (id : Nat) : Reader :=
  ((registry.scanners[id]?).map (·.reader)).getD (Reader.start [])

/-- The names that rules may capture the tokens of a scanner by. -/
def kindsOf (id : Nat) : KindTable := (registry.scanner id).kinds

def leaveReader (id : Nat) (reader : Reader) : Registry :=
  { registry with
    scanners := registry.scanners.modify id fun entry => { entry with reader } }

def addScanRule (id : Nat) (rule : ScanRule) : Except ScanRuleError Registry :=
  (registry.scanner id).addRule rule |>.map fun scanner =>
    { registry with
      scanners := registry.scanners.modify id fun entry => { entry with scanner } }

/-- Registers a grammar. Inside another grammar it has the scanner of that one unless it is given
one; on its own, the standard scanner. -/
def addGrammar (name : String) (scanner : Option Nat) (parent : Option Nat) : Registry × Nat :=
  let outer := parent.bind (registry.grammars[·]?)
  let (registry, scanner) :=
    match scanner, outer with
    | some scanner, _ => (registry, scanner)
    | none, some outer => (registry, outer.scanner)
    | none, none => registry.addScanner .standard
  let (scopes, scope) := registry.scopes.create (some name) (outer.map (·.scope))
  ({ registry with scopes, grammars := registry.grammars ++ [{ name, scanner, scope }] },
   registry.grammars.length)

/-- Registers a shape. The name of a shape that belongs to a grammar must be new there. -/
def addShape (shape : Shape) : Except (ScopeError String) (Registry × ShapeId) :=
  let id := registry.shapes.length
  let added := { registry with shapes := registry.shapes ++ [shape] }
  match shape.grammar.bind (registry.grammars[·]?) with
  | none => .ok (added, id)
  | some grammar =>
      (registry.scopes.define grammar.scope shape.name id).map fun scopes =>
        ({ added with scopes }, id)

def scopeOf (grammar : Nat) : Nat :=
  ((registry.grammars[grammar]?).map (·.scope)).getD 0

/-- The shape with a name, as seen from a grammar. -/
def lookup (grammar : Nat) (name : String) : Except (ScopeError String) ShapeId :=
  registry.scopes.lookup (registry.scopeOf grammar) name

def contains (grammar : Nat) (name : String) : Bool :=
  registry.scopes.contains (registry.scopeOf grammar) name

def names (grammar : Nat) : List String :=
  registry.scopes.names (registry.scopeOf grammar)

def shape (id : ShapeId) : Shape :=
  (registry.shapes[id]?).getD { name := "" }

def setShape (id : ShapeId) (shape : Shape) : Registry :=
  { registry with shapes := registry.shapes.set id shape }

/-- The scanner of a shape: its own, that of its grammar, or a standard one that is registered
when it is first asked for. The answer stays the same from then on. -/
def scannerOf (id : ShapeId) : Registry × Nat :=
  let shape := registry.shape id
  match shape.scanner, shape.grammar.bind (registry.grammars[·]?) with
  | some scanner, _ => (registry, scanner)
  | none, some grammar =>
      (registry.setShape id { shape with scanner := some grammar.scanner }, grammar.scanner)
  | none, none =>
      let (added, scanner) := registry.addScanner .standard
      (added.setShape id { shape with scanner := some scanner }, scanner)

def register (id : ShapeId) (field : Field) : Except FieldError Registry :=
  ((registry.shape id).register field).map (registry.setShape id)

/-- What an operation gives: its result or a fault, the registry afterwards, the warnings on the
way and what was logged. -/
structure Report (α : Type) where
  result : Except Fault α
  registry : Registry
  warnings : List String := []
  log : String := ""

def compile (id : ShapeId) (kinds : KindTable) : Report Unit :=
  let compiled := (registry.shape id).compile id kinds
  { result := match compiled.error with
      | some error => .error (.rule error)
      | none => .ok ()
    registry := registry.setShape id compiled.shape
    warnings := compiled.warnings }

/-- The tree of a shape, compiled if need be with the names of a given scanner or else of the
shape's own. -/
def treeOf (id : ShapeId) (scanner : Option Nat) : Report Tree :=
  let (scanning, scanner) := match scanner with
    | some scanner => (registry, scanner)
    | none => registry.scannerOf id
  let compiled := scanning.compile id (scanning.kindsOf scanner)
  { compiled with
    result := do
      compiled.result
      match (compiled.registry.shape id).root with
      | some root => return root
      | none => throw .noTree }

def fresh (id : ShapeId) : Report Value where
  result := (registry.shape id).fresh id
  registry := registry.setShape id (registry.shape id).close

def construct (id : ShapeId) (values : List (String × Value)) : Report Value where
  result := (registry.shape id).construct id values
  registry := registry.setShape id (registry.shape id).close

/-- The shape that a reference means. A slot that was resolved once keeps its answer. Otherwise a
name is looked up in the grammar of the shape that the reference belongs to. -/
def resolve (site : Site) (target : ShapeRef) : Except Fault ShapeId :=
  match site.owner.bind fun owner => (registry.shape owner).resolved? site.slot, target with
  | some found, _ => .ok found
  | none, .shape id _ => .ok id
  | none, .named name =>
      match site.owner with
      | none => .error (.scope (.missing name none))
      | some owner =>
          match (registry.shape owner).grammar with
          | none => .error (.scope (.missing name (some (registry.shape owner).name)))
          | some grammar => (registry.lookup grammar name).mapError .scope

/-- The trees of all shapes, as they are or as they will be when they are compiled. -/
def roots (kinds : KindTable) : List (Except Fault Tree) :=
  registry.shapes.mapIdx fun id shape => shape.rootWith id kinds

def rootSize : Except Fault Tree → Nat
  | .ok root => root.size
  | .error _ => 0

def weight (kinds : KindTable) : Nat :=
  (registry.roots kinds).foldl (fun total root => total + rootSize root) 0

/-- What references stand for, as long as nothing else is registered. Shapes that are reached for
the first time are compiled with the given names. -/
def environment (kinds : KindTable) : Environment :=
  let roots := (registry.roots kinds).toArray
  -- The trees are built once and not at every reference.
  { resolve := registry.resolve
    root := fun id => (roots[id]?).getD (.error .noTree)
    fresh := fun id => (registry.shape id).fresh id
    fill := Binding.applyAll }

/-- What an event leaves behind: a slot with a memory, a shape with a tree, a shape whose fields
are closed. Compiling may give warnings. -/
def settleEvent (kinds : KindTable) (event : Event) : Registry × List String :=
  match event with
  | .reached site id =>
      let remembering :=
        match site.owner with
        | some owner => registry.setShape owner ((registry.shape owner).remember site.slot id)
        | none => registry
      let report := remembering.compile id kinds
      (report.registry, report.warnings)
  | .made id => (registry.setShape id (registry.shape id).close, [])

/-- What the events of a match leave behind, from the first to the last. -/
def settle (registry : Registry) (kinds : KindTable) : List Event → Registry × List String
  | [] => (registry, [])
  | event :: rest =>
      let (next, warnings) := registry.settleEvent kinds event
      let (last, later) := settle next kinds rest
      (last, warnings ++ later)

end Registry

end RecordGrammar
