import Mathlib
import RecordGrammar.Parse
import RecordGrammar.Proofs.Match.Parallel
import RecordGrammar.Proofs.Registry.Compilation

namespace RecordGrammar

open RecordGrammar.Source (SourceText)

/-! A parse stage by stage: the shape is compiled, the text is scanned, the tokens are read, and
what the reading leaves behind is settled. -/

namespace Registry

variable (registry : Registry) (parser : Parser) (source : SourceText)

/-- The names that rules may capture tokens by, if a parse compiles them. -/
def kindsFor : KindTable :=
  (registry.scannerFor parser).1.kindsOf (registry.scannerFor parser).2

def compiledFor : Report Unit :=
  (registry.scannerFor parser).1.compile parser.shape (registry.kindsFor parser)

def scanFor : Scanner.Scan :=
  ((registry.compiledFor parser).registry.scanner (registry.scannerFor parser).2).scan
    source.content

/-- The registry as the tokens are read. -/
def scannedFor : Registry :=
  (registry.compiledFor parser).registry.leaveReader (registry.scannerFor parser).2
    (registry.scanFor parser source).reader

/-- What a parse reads from its tokens, with the events of the reading and what is logged. -/
def read (kinds : KindTable) (stream : TokenStream) : Except Fault Value × List Event × String :=
  let env := registry.environment kinds
  match env.root parser.shape with
  | .error fault => (.error fault, [], "")
  | .ok root =>
      conclude env parser.shape source stream
        (root.attempt env (registry.weight kinds) stream parser.complete ⟨some parser.shape, 0⟩ {})

theorem parse_eq :
    registry.parse parser source =
      match (registry.compiledFor parser).result with
      | .error fault => { registry.compiledFor parser with result := .error fault }
      | .ok () =>
          match streamOf (registry.scanFor parser source) with
          | .error fault =>
              { result := (reportScan source fault).1
                registry := registry.scannedFor parser source
                warnings := (registry.compiledFor parser).warnings
                log := (reportScan source fault).2 }
          | .ok stream =>
              let kinds := registry.kindsFor parser
              let scanned := registry.scannedFor parser source
              let (result, events, log) := scanned.read parser source kinds stream
              { result, log
                registry := (scanned.settle kinds events).1
                warnings :=
                  (registry.compiledFor parser).warnings ++ (scanned.settle kinds events).2 } := by
  simp only [parse, scanText, read, scannedFor, scanFor, compiledFor, kindsFor]
  generalize (registry.scannerFor parser).1.compile parser.shape _ = compiled
  cases compiled.result with
  | error fault => rfl
  | ok done =>
      simp only
      generalize (compiled.registry.scanner (registry.scannerFor parser).2).scan source.content =
        scan
      cases streamOf scan with
      | error fault => rfl
      | ok stream =>
          simp only
          generalize compiled.registry.leaveReader
            (registry.scannerFor parser).2 scan.reader = scanned
          cases (scanned.environment _).root parser.shape with
          | error fault => simp only [settle, List.append_nil]
          | ok root => rfl

section Success

variable {registry : Registry} {parser : Parser} {source : SourceText} {kinds : KindTable}
  {stream : TokenStream} {value : Value}

theorem conclude_ok {env : Environment} {shape : ShapeId} {outcome : Outcome}
    (succeeded : (conclude env shape source stream outcome).1 = .ok value) :
    ∃ bindings next blank, outcome = .matched bindings next ∧ env.fresh shape = .ok blank ∧
      env.fill bindings blank = .ok value := by
  cases outcome with
  | matched bindings next =>
      simp only [conclude] at succeeded
      cases made : env.fresh shape with
      | error fault => simp [made] at succeeded
      | ok blank =>
          simp only [made] at succeeded
          cases applied : env.fill bindings blank with
          | error error => simp [applied, Except.mapError] at succeeded
          | ok filled =>
              simp only [applied, Except.mapError, Except.ok.injEq] at succeeded
              exact ⟨bindings, next, blank, rfl, rfl, succeeded ▸ applied⟩
  | failed mismatch next =>
      simp only [conclude] at succeeded
      split at succeeded <;> cases succeeded
  | faulted fault next | broken breach next | exhausted => cases succeeded

/-- Where reading succeeds, an attempt has matched and a new record has taken what was bound. -/
theorem read_ok (succeeded : (registry.read parser source kinds stream).1 = .ok value) :
    ∃ root bindings next blank, (registry.environment kinds).root parser.shape = .ok root ∧
      root.attempt (registry.environment kinds) (registry.weight kinds) stream parser.complete
        ⟨some parser.shape, 0⟩ {} = .matched bindings next ∧
      (registry.environment kinds).fresh parser.shape = .ok blank ∧
      Binding.applyAll bindings blank = .ok value := by
  simp only [read] at succeeded
  cases made : (registry.environment kinds).root parser.shape with
  | error fault => simp [made] at succeeded
  | ok root =>
      simp only [made] at succeeded
      obtain ⟨bindings, next, blank, matched, new, applied⟩ := conclude_ok succeeded
      exact ⟨root, bindings, next, blank, rfl, matched, new, applied⟩

end Success

/-- Concluding notes no more than that a record is made. -/
theorem conclude_events (env : Environment) (shape : ShapeId) (source : SourceText)
    (stream : TokenStream) (outcome : Outcome) :
    ∀ event ∈ (conclude env shape source stream outcome).2.1, event = .made shape ∨
      event ∈ outcome.trace := by
  intro event
  cases outcome with
  | matched bindings state =>
      have noted (held : event ∈ (state.note (.made shape)).trace.reverse) :
          event = .made shape ∨ event ∈ state.trace :=
        List.mem_cons.mp (List.mem_reverse.mp held)
      simp only [conclude]
      split <;> exact noted
  | failed mismatch state =>
      simp only [conclude]
      split <;> exact fun held => .inr (List.mem_reverse.mp held)
  | faulted fault state | broken breach state => exact fun held => .inr (List.mem_reverse.mp held)
  | exhausted => simp [conclude]

theorem applyOutcome_events (stream : TokenStream) (target : Except Fault Value)
    (outcome : Outcome) :
    (applyOutcome stream target outcome).2 = outcome.trace.reverse := by
  cases outcome <;> rfl

end Registry

namespace Tree

/-- What an attempt comes to, given what the run of its tree comes to. -/
def finish (stream : TokenStream) (complete : Bool) : Outcome → Outcome
  | .matched bindings next =>
      if complete && !next.cursor.atEnd stream then
        .failed (next.cursor.mismatch stream next.index "expected end of text")
          { next with cursor := next.cursor.expect "end of text" }
      else .matched bindings next
  | other => other

theorem attempt_eq_finish (env : Environment) (weight : Nat) (stream : TokenStream)
    (complete : Bool) (site : Site) (tree : Tree) (state : MatchState) :
    tree.attempt env weight stream complete site state =
      finish stream complete (tree.run env stream (tree.fuelFor weight stream) site state) := rfl

/-- What is left over after a match may fail an attempt, but makes none succeed. -/
theorem run_of_attempt {env : Environment} {weight : Nat} {stream : TokenStream} {complete : Bool}
    {site : Site} {tree : Tree} {state next : MatchState} {bindings : List Binding}
    (attempted : tree.attempt env weight stream complete site state = .matched bindings next) :
    tree.run env stream (tree.fuelFor weight stream) site state = .matched bindings next := by
  rw [attempt_eq_finish] at attempted
  cases ran : tree.run env stream (tree.fuelFor weight stream) site state with
  | matched early last =>
      simp only [ran, finish] at attempted
      split at attempted
      · cases attempted
      · exact attempted
  | failed mismatch last | faulted fault last | broken breach last | exhausted =>
      simp [ran, finish] at attempted

theorem attempt_parallel {env other : Environment} {stream : TokenStream}
    {stands : Site → Tree → Prop} {related : MatchState → MatchState → Prop} {caused : Fault → Prop}
    (alongside : Alongside env other stream stands related caused) (weight : Nat) (complete : Bool)
    {site : Site} {tree : Tree} {state next : MatchState} (standing : stands site tree)
    (states : related state next) :
    (tree.attempt env weight stream complete site state).Parallel related caused
      (tree.attempt other weight stream complete site next) := by
  have parallel :=
    run_parallel alongside (tree.fuelFor weight stream) site tree state next standing states
  rw [attempt_eq_finish, attempt_eq_finish]
  generalize tree.run env stream (tree.fuelFor weight stream) site state = left at parallel
  generalize tree.run other stream (tree.fuelFor weight stream) site next = right at parallel
  cases parallel with
  | @matched last lastToo bindings states =>
      have here : last.cursor.index = lastToo.cursor.index := alongside.index states
      have ends : last.cursor.atEnd stream = lastToo.cursor.atEnd stream := by
        simp only [Cursor.atEnd, Cursor.current?, here]
      simp only [finish, ends, Cursor.mismatch, Cursor.position?, Cursor.current?,
        MatchState.index, here]
      split
      · exact .failed (alongside.expect states _)
      · exact .matched states
  | failed states => exact .failed states
  | faulted reason states => exact .faulted reason states
  | broken states => exact .broken states
  | exhausted => exact .exhausted

end Tree

/-- A property of shapes that outlasts every use of them. -/
structure Shape.Lasting (holds : Shape → Prop) : Prop where
  scanner : holds shape → ∀ scanner, holds { shape with scanner }
  compile : holds shape → ∀ id kinds, holds (shape.compile id kinds).shape
  remember : holds shape → ∀ slot target, holds (shape.remember slot target)
  close : holds shape → holds shape.close

theorem Shape.built_lasting : Lasting Built where
  scanner := fun built _ => built
  compile := Built.compile
  remember := Built.remember
  close := Built.close

namespace Registry

/-- One step of what a registry goes through as its shapes are used. -/
inductive Uses : Registry → Registry → Prop
  | asks (registry : Registry) (id : ShapeId) : Uses registry (registry.scannerOf id).1
  | compiles (registry : Registry) (id : ShapeId) (kinds : KindTable) :
      Uses registry (registry.compile id kinds).registry
  | reads (registry : Registry) (id : Nat) (reader : Reader) :
      Uses registry (registry.leaveReader id reader)
  | settles (registry : Registry) (kinds : KindTable) (events : List Event) :
      Uses registry (registry.settle kinds events).1

/-- What registrations and uses, in any order, make of nothing. -/
inductive Reached : Registry → Prop
  | nothing : Reached {}
  | registers (before : Reached registry) (step : Registers registry other) : Reached other
  | uses (before : Reached registry) (step : Uses registry other) : Reached other

variable {registry : Registry} {holds : Shape → Prop}

theorem EachShape.scannerOf (lasting : Shape.Lasting holds) (each : registry.EachShape holds)
    (id : ShapeId) :
    (registry.scannerOf id).1.EachShape holds := by
  unfold Registry.scannerOf
  simp only
  split
  · exact each
  · exact each.setShape id (lasting.scanner (each id) _)
  · exact EachShape.setShape (show (registry.addScanner .standard).1.EachShape holds from each) id
      (lasting.scanner (each id) _)

theorem EachShape.compile (lasting : Shape.Lasting holds) (each : registry.EachShape holds)
    (id : ShapeId) (kinds : KindTable) : (registry.compile id kinds).registry.EachShape holds :=
  each.setShape id (lasting.compile (each id) id kinds)

theorem EachShape.settle (lasting : Shape.Lasting holds) (kinds : KindTable) (events : List Event)
    (each : registry.EachShape holds) : (registry.settle kinds events).1.EachShape holds := by
  induction events generalizing registry with
  | nil => exact each
  | cons event rest ih =>
      simp only [Registry.settle]
      refine ih ?_
      cases event with
      | reached site id =>
          cases owned : site.owner with
          | none =>
              simp only [settleEvent, owned]
              exact each.compile lasting id kinds
          | some owner =>
              simp only [settleEvent, owned]
              exact EachShape.compile lasting
                (each.setShape owner (lasting.remember (each owner) _ _)) id kinds
      | made id => exact each.setShape id (lasting.close (each id))

theorem Uses.eachShape {other : Registry} (lasting : Shape.Lasting holds)
    (uses : Uses registry other) (each : registry.EachShape holds) : other.EachShape holds := by
  cases uses with
  | asks id => exact each.scannerOf lasting id
  | compiles id kinds => exact each.compile lasting id kinds
  | reads id reader => exact each
  | settles kinds events => exact each.settle lasting kinds events

theorem Registered.reached (registered : Registered registry) : Reached registry := by
  induction registered with
  | nothing => exact .nothing
  | more _ registers ih => exact ih.registers registers

theorem Reached.built (reached : Reached registry) : registry.EachShape Shape.Built := by
  have blank (name : String) (grammar scanner : Option Nat)
      (factory : Option (List (String × Value))) :
      ({ name, grammar, scanner, factory } : Shape).Built := by
    rintro root ⟨⟩
  induction reached with
  | nothing => exact fun _ => blank "" none none none
  | registers _ step ih =>
      exact step.eachShape blank (fun _ _ _ built added => built.register added) ih
  | uses _ step ih => exact step.eachShape Shape.built_lasting ih

theorem Reached.scannedFor (reached : Reached registry) (parser : Parser) (source : SourceText) :
    Reached (registry.scannedFor parser source) := by
  have scanning : Reached (registry.scannerFor parser).1 := by
    unfold scannerFor
    split
    · exact reached
    · exact reached.uses (.asks registry parser.shape)
  exact (scanning.uses (.compiles _ parser.shape _)).uses (.reads _ _ _)

end Registry

end RecordGrammar
