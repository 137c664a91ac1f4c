import Mathlib
import RecordGrammar.Proofs.Match.Record
import RecordGrammar.Proofs.Parse.Stages

namespace RecordGrammar

open RecordGrammar.Source (SourceText)
open RecordGrammar.Text (quoteWording)

/-! What is reported when a text does not match. -/

theorem Cursor.current_of_atEnd_eq_false {stream : TokenStream} {cursor : Cursor}
    (unfinished : cursor.atEnd stream = false) :
    ∃ token, stream.token? cursor.index = some token ∧ token.isEnd = false := by
  unfold Cursor.atEnd at unfinished
  split at unfinished
  · cases unfinished
  · rename_i token here
    exact ⟨token, here, unfinished⟩

theorem explainMismatch_failure {source : Source.SourceText} {stream : TokenStream}
    {cursor : Cursor} {mismatch : Mismatch} {failure : ParseFailure} {complaint : String}
    (explained : explainMismatch source stream cursor mismatch = .ok (failure, complaint)) :
    ∃ token, cursor.deepest? stream = some token ∧
      failure = { position := some token.position, token := some token
                  what := failureText token cursor.expected mismatch } := by
  unfold explainMismatch at explained
  split at explained
  · cases explained
  · rename_i token found
    simp only at explained
    split at explained
    · cases explained
    · cases explained
      exact ⟨token, found, rfl⟩

namespace Tree

variable {env : Environment} {stream : TokenStream} {site : Site} {tree : Tree} {complete : Bool}

/-- What a failed attempt is put down to: a leaf that refused at a place, or tokens that are left
over from there on. -/
def Blames (env : Environment) (stream : TokenStream) (complete : Bool) (site : Site) (tree : Tree)
    (place : Nat) (wanted : String) : Prop :=
  Refuses env stream site tree 0 place wanted ∨
    complete = true ∧ wanted = "end of text" ∧
      ∃ bindings token, Derives env stream site tree 0 (.success place bindings) ∧
        stream.token? place = some token ∧ token.isEnd = false

/-- What the record of failures says after a failed attempt. -/
structure WellFounded (env : Environment) (stream : TokenStream) (complete : Bool) (site : Site)
    (tree : Tree) (place : Nat) (expected : List String) : Prop where
  some : expected ≠ []
  distinct : expected.Nodup
  listed : ∀ wanted, wanted ∈ expected ↔ Blames env stream complete site tree place wanted
  furthest : ∀ other wanted, Blames env stream complete site tree other wanted → other ≤ place
  unconsumed : ∀ stop bindings, Derives env stream site tree 0 (.success stop bindings) →
    stop ≤ place

theorem Blames.lt_size {place : Nat} {wanted : String}
    (blames : Blames env stream complete site tree place wanted) : place < stream.size := by
  rcases blames with refuses | ⟨_, _, bindings, token, derived, _⟩
  · exact refuses.lt_size stream.size_pos
  · exact (derived.passes (Nat.zero_le _)).lt_size stream.size_pos

/-- A summary of all that an attempt may be put down to, of which there is something. -/
theorem wellFounded_of_summarizes {cursor : Cursor}
    (summary : Cursor.Summarizes {} cursor (Blames env stream complete site tree))
    (blamed : ∃ place wanted, Blames env stream complete site tree place wanted)
    (unconsumed : ∀ stop bindings, Derives env stream site tree 0 (.success stop bindings) →
      stop ≤ cursor.furthest) :
    WellFounded env stream complete site tree cursor.furthest cursor.expected where
  some := by
    obtain ⟨place, wanted, blames⟩ := blamed
    have bound := summary.bounded place wanted blames
    rcases summary.reached with still | ⟨other, reached⟩
    · -- Nothing was noted behind the first token, so whatever is blamed is at that token.
      have here : place = cursor.furthest := by
        rw [still] at bound ⊢
        exact Nat.le_zero.mp bound
      exact List.ne_nil_of_mem ((summary.listed wanted).mpr (.inl (here ▸ blames)))
    · exact List.ne_nil_of_mem ((summary.listed other).mpr (.inl reached))
  distinct := summary.distinct (by simp)
  listed := by
    intro wanted
    rw [summary.listed]
    simp
  furthest := summary.bounded
  unconsumed := unconsumed

/-- After a failed attempt, the record of failures says what the attempt is put down to. -/
theorem attempt_failed_wellFounded (compiled : env.NoEmptyChoice) (whole : tree.NoEmptyChoice)
    {weight : Nat} {mismatch : Mismatch} {next : MatchState}
    (failed : tree.attempt env weight stream complete site {} = .failed mismatch next) :
    WellFounded env stream complete site tree next.cursor.furthest next.cursor.expected := by
  have records := run_records env stream (tree.fuelFor weight stream) site tree {} (Nat.zero_le _)
  have derived := @run_sound env stream (tree.fuelFor weight stream) site tree {}
  unfold attempt at failed
  cases ran : run env stream (tree.fuelFor weight stream) site tree {} with
  | failed other state =>
      rw [ran] at failed records derived
      cases failed
      have refused := derived (Nat.zero_le _) rfl
      have never {stop : Nat} {bindings : List Binding} :
          ¬ Derives env stream site tree 0 (.success stop bindings) := by
        intro success
        cases refused.unique (Nat.zero_le _) success
      obtain ⟨place, wanted, _, refuses⟩ := refused.refuses compiled rfl (Nat.zero_le _) whole
      refine wellFounded_of_summarizes (records.congr fun place wanted => ?_)
        ⟨place, wanted, .inl refuses⟩ (fun stop bindings success => absurd success never)
      constructor
      · exact .inl
      · rintro (refuses | ⟨_, _, bindings, token, success, _⟩)
        · exact refuses
        · exact absurd success never
  | matched bindings state =>
      rw [ran] at failed records derived
      -- The tree itself has matched, so what failed is the check for tokens left over.
      have success := derived (Nat.zero_le _) rfl
      simp only at failed
      split at failed
      · rename_i left
        cases failed
        simp only [Bool.and_eq_true, Bool.not_eq_true'] at left
        obtain ⟨demanded, unfinished⟩ := left
        obtain ⟨token, here, unmarked⟩ := Cursor.current_of_atEnd_eq_false unfinished
        have leftover : Blames env stream complete site tree state.index "end of text" :=
          .inr ⟨demanded, rfl, bindings, token, success, here, unmarked⟩
        have noted := records.trans (Cursor.Summarizes.expect state.cursor "end of text")
        refine wellFounded_of_summarizes (noted.congr fun place wanted => ?_) ⟨_, _, leftover⟩
          (fun stop bindings also => ?_)
        · constructor
          · rintro (refuses | ⟨rfl, rfl⟩)
            · exact .inl refuses
            · exact leftover
          · rintro (refuses | ⟨_, rfl, bindings, token, also, _⟩)
            · exact .inl refuses
            · cases success.unique (Nat.zero_le _) also
              exact .inr ⟨rfl, rfl⟩
        · cases success.unique (Nat.zero_le _) also
          exact noted.bounded _ _ (.inr ⟨rfl, rfl⟩)
      · cases failed
  | _ => simp [ran] at failed

/-- The furthest place of a failed attempt is one in the stream. -/
theorem attempt_failed_token (compiled : env.NoEmptyChoice) (whole : tree.NoEmptyChoice)
    {weight : Nat} {mismatch : Mismatch} {next : MatchState}
    (failed : tree.attempt env weight stream complete site {} = .failed mismatch next) :
    ∃ token, next.cursor.deepest? stream = some token := by
  have founded := attempt_failed_wellFounded compiled whole failed
  obtain ⟨wanted, listed⟩ := List.exists_mem_of_ne_nil _ founded.some
  have inside := ((founded.listed wanted).mp listed).lt_size
  exact ⟨_, Array.getElem?_eq_getElem inside⟩

end Tree

/-- Whether a fault says that a text does not match. -/
def Fault.Unmatched : Fault → Prop
  | .noMatch _ | .noToken => True
  | _ => False

/-- An action may fail, but not for a text that does not match. -/
def Spares {α : Type} (action : Except Fault α) : Prop :=
  ∀ fault, action = .error fault → ¬ fault.Unmatched

namespace Spares

variable {α β : Type}

theorem ok (value : α) : Spares (.ok value : Except Fault α) := by
  rintro fault ⟨⟩

theorem error {fault : Fault} (other : ¬ fault.Unmatched) :
    Spares (.error fault : Except Fault α) := by
  rintro _ ⟨⟩
  exact other

theorem bind {action : Except Fault α} {next : α → Except Fault β} (first : Spares action)
    (later : ∀ value, Spares (next value)) : Spares (action >>= next) := by
  cases action with
  | error fault => exact error (first fault rfl)
  | ok value => exact later value

theorem mapError {cause : Type} {action : Except cause α} {wrap : cause → Fault}
    (other : ∀ reason, ¬ (wrap reason).Unmatched) : Spares (action.mapError wrap) := by
  cases action with
  | error reason => exact error (other reason)
  | ok value => exact ok value

theorem mapM {items : List α} {step : α → Except Fault β} (each : ∀ item, Spares (step item)) :
    Spares (items.mapM step) := by
  induction items with
  | nil => exact ok []
  | cons item rest ih =>
      rw [List.mapM_cons]
      exact (each item).bind fun value => ih.bind fun values => ok _

theorem foldlM {items : List α} {step : β → α → Except Fault β}
    (each : ∀ value item, Spares (step value item)) (start : β) :
    Spares (items.foldlM step start) := by
  induction items generalizing start with
  | nil => exact ok start
  | cons item rest ih =>
      rw [List.foldlM_cons]
      exact (each start item).bind ih

end Spares

namespace Shape

variable (shape : Shape) (id : ShapeId)

theorem not_unmatched_fillError {given : List String} {fault : Fault}
    (found : shape.fillError? given = some fault) :
    ¬ fault.Unmatched := by
  unfold fillError? at found
  iterate 5
    split at found
    · cases found
      exact not_false
  cases found

theorem spares_record (values : List (String × Value)) : Spares (shape.record id values) := by
  refine Spares.bind (.mapM fun field => ?_) fun attributes => ?_
  · unfold store
    split
    · exact .error not_false
    · split
      · exact .error not_false
      · exact .ok _
  · split
    · exact .ok _
    · exact .error not_false

theorem spares_construct (values : List (String × Value)) : Spares (shape.construct id values) := by
  unfold construct
  split
  · exact .mapError fun _ => not_false
  · split <;> exact .error not_false
  · split
    · exact .error not_false
    · rename_i found
      exact .error (shape.not_unmatched_fillError found)
    · exact shape.spares_record id _

theorem spares_fresh : Spares (shape.fresh id) := by
  refine (shape.spares_construct id []).bind fun target => .foldlM (fun value field => ?_) target
  unfold fill
  split
  · exact .mapError fun _ => not_false
  · exact .ok value

end Shape

theorem Breach.spares (breach : Breach) : ¬ breach.fault.Unmatched := by
  cases breach <;> exact not_false

namespace Registry

variable {registry : Registry} {kinds : KindTable} {stream : TokenStream} {parser : Parser}
  {source : SourceText}

theorem spares_resolve (site : Site) (target : ShapeRef) :
    Spares (registry.resolve site target) := by
  unfold resolve
  split
  · exact .ok _
  · exact .ok _
  · split
    · exact .error not_false
    · split
      · exact .error not_false
      · exact .mapError fun _ => not_false

theorem spares_root (kinds : KindTable) (id : ShapeId) :
    Spares ((registry.environment kinds).root id) := by
  intro fault failed
  simp only [environment, roots, List.getElem?_toArray, List.getElem?_mapIdx] at failed
  cases found : registry.shapes[id]? with
  | none =>
      simp only [found, Option.map_none, Option.getD_none] at failed
      cases failed
      exact not_false
  | some shape =>
      simp only [found, Option.map_some, Option.getD_some, Shape.rootWith] at failed
      split at failed
      · cases failed
        exact not_false
      · split at failed
        · cases failed
        · cases failed
          exact not_false

/-- No fault on the way of an attempt says that the text does not match. -/
theorem alongside_spares (registry : Registry) (kinds : KindTable) (stream : TokenStream) :
    Tree.Alongside (registry.environment kinds) (registry.environment kinds) stream
      (fun _ _ => True) Eq (fun fault => ¬ fault.Unmatched) where
  toReaches := Tree.reaches_anywhere _
  resolveEq := fun _ => rfl
  rootEq := rfl
  freshEq := rfl
  fillEq := rfl
  resolveError := spares_resolve _ _ _
  rootError := spares_root kinds _ _
  freshError := Shape.spares_fresh _ _ _
  bindingError := fun _ => not_false
  index := fun same => congrArg MatchState.index same
  goto := fun same _ => by rw [same]
  expect := fun same wanted => by rw [same]
  advance := fun same => by rw [same]
  reached := fun _ _ same => by rw [same]
  made := fun _ same => by rw [same]

/-- Only a failed match is put down to the text, unless another fault says as much. -/
theorem conclude_unmatched {outcome : Outcome} {shape : ShapeId} {fault : Fault}
    (failed : (conclude (registry.environment kinds) shape source stream outcome).1 = .error fault)
    (unmatched : fault.Unmatched)
    (spared : ∀ other state, outcome = .faulted other state → ¬ other.Unmatched) :
    ∃ mismatch next, outcome = .failed mismatch next ∧
      (explainMismatch source stream next.cursor mismatch = .error fault ∨
        ∃ failure complaint, fault = .noMatch failure ∧
          explainMismatch source stream next.cursor mismatch = .ok (failure, complaint)) := by
  cases outcome with
  | failed mismatch next =>
      refine ⟨mismatch, next, rfl, ?_⟩
      simp only [conclude] at failed
      cases explained : explainMismatch source stream next.cursor mismatch with
      | error other =>
          simp only [explained] at failed
          cases failed
          exact .inl rfl
      | ok report =>
          simp only [explained] at failed
          cases failed
          exact .inr ⟨_, _, rfl, rfl⟩
  | matched bindings next =>
      simp only [conclude] at failed
      cases made : (registry.environment kinds).fresh shape with
      | error other =>
          simp only [made] at failed
          cases failed
          exact absurd unmatched (Shape.spares_fresh _ _ _ made)
      | ok blank =>
          have bound : Spares ((Binding.applyAll bindings blank).mapError .binding) :=
            .mapError fun _ => not_false
          simp only [made] at failed
          exact absurd unmatched (bound _ failed)
  | faulted other next =>
      cases failed
      exact absurd unmatched (spared _ _ rfl)
  | broken breach next =>
      cases failed
      exact absurd unmatched breach.spares
  | exhausted =>
      cases failed
      exact unmatched.elim

/-- Where reading reports that a text does not match, an attempt has failed and is explained. -/
theorem read_unmatched {fault : Fault}
    (failed : (registry.read parser source kinds stream).1 = .error fault)
    (unmatched : fault.Unmatched) :
    ∃ root mismatch next, (registry.environment kinds).root parser.shape = .ok root ∧
      root.attempt (registry.environment kinds) (registry.weight kinds) stream parser.complete
        ⟨some parser.shape, 0⟩ {} = .failed mismatch next ∧
      (explainMismatch source stream next.cursor mismatch = .error fault ∨
        ∃ failure complaint, fault = .noMatch failure ∧
          explainMismatch source stream next.cursor mismatch = .ok (failure, complaint)) := by
  simp only [read] at failed
  cases rooted : (registry.environment kinds).root parser.shape with
  | error other =>
      simp only [rooted] at failed
      cases failed
      exact absurd unmatched (spares_root kinds _ _ rooted)
  | ok root =>
      simp only [rooted] at failed
      have parallel :
          (root.attempt (registry.environment kinds) (registry.weight kinds) stream parser.complete
            ⟨some parser.shape, 0⟩ {}).Parallel Eq (fun fault => ¬ fault.Unmatched) _ :=
        Tree.attempt_parallel (alongside_spares registry kinds stream) _ _ trivial rfl
      obtain ⟨mismatch, next, attempted, explained⟩ :=
        conclude_unmatched failed unmatched fun other state faulted => by
        rw [faulted] at parallel
        cases parallel with
        | faulted reason => exact reason
      exact ⟨root, mismatch, next, rfl, attempted, explained⟩

theorem spares_compile (id : ShapeId) (kinds : KindTable) :
    Spares (registry.compile id kinds).result := by
  simp only [compile]
  split
  · exact .error not_false
  · exact .ok ()

theorem spares_reportScan {scan : Scanner.Scan} {fault : Fault}
    (failed : streamOf scan = .error fault) :
    Spares (reportScan source fault).1 := by
  have spared : ¬ fault.Unmatched := by
    unfold streamOf at failed
    split at failed <;> cases failed <;> exact not_false
  unfold reportScan
  split
  · split <;> exact .error not_false
  · exact .error spared

/-- A parse reports that a text does not match only after its tokens were read. -/
theorem parse_unmatched {fault : Fault}
    (failed : (registry.parse parser source).result = .error fault) (unmatched : fault.Unmatched) :
    ∃ stream, streamOf (registry.scanFor parser source) = .ok stream ∧
      ((registry.scannedFor parser source).read parser source (registry.kindsFor parser) stream).1 =
        .error fault := by
  rw [parse_eq] at failed
  cases compiled : (registry.compiledFor parser).result with
  | error other =>
      simp only [compiled] at failed
      cases failed
      exact absurd unmatched (spares_compile _ _ _ compiled)
  | ok done =>
      simp only [compiled] at failed
      cases streamed : streamOf (registry.scanFor parser source) with
      | error other =>
          simp only [streamed] at failed
          exact absurd unmatched (spares_reportScan streamed _ failed)
      | ok stream =>
          simp only [streamed] at failed
          exact ⟨stream, rfl, failed⟩

theorem spares_explainMismatch {cursor : Cursor} {mismatch : Mismatch} {token : Token}
    (deepest : cursor.deepest? stream = some token) :
    Spares (explainMismatch source stream cursor mismatch) := by
  unfold explainMismatch
  rw [deepest]
  simp only
  split
  · exact .error not_false
  · exact .ok _

/-- A parse that finds no match in a text has something to report, and reports it for a reason.
There is a token at the place in question, and the report says what was found there and what was
expected. What was expected is not nothing, and is listed once each: just what the leaves wanted
that were tried there and refused, and the end of the text if the match stopped there with tokens
left over. No leaf was tried in vain any further on, and no token behind that place was taken. -/
theorem parse_failure_wellFounded (reached : Reached registry) (parser : Parser)
    (source : SourceText) :
    (registry.parse parser source).result ≠ .error .noToken ∧
    ∀ failure, (registry.parse parser source).result = .error (.noMatch failure) →
      ∃ stream root place token expected,
        streamOf (registry.scanFor parser source) = .ok stream ∧
        ((registry.scannedFor parser source).environment (registry.kindsFor parser)).root
          parser.shape = .ok root ∧
        stream.token? place = some token ∧
        failure = { position := some token.position, token := some token
                    what :=
                      "Unexpected " ++
                        (if token.isEnd then "end of text" else "token " ++ quoteWording token.text) ++
                        "; expected " ++ " or ".intercalate expected } ∧
        Tree.WellFounded
          ((registry.scannedFor parser source).environment (registry.kindsFor parser)) stream
          parser.complete ⟨some parser.shape, 0⟩ root place expected := by
  have compiled :=
    environment_noEmptyChoice (reached.scannedFor parser source).built (registry.kindsFor parser)
  constructor
  · intro failed
    obtain ⟨stream, _, failed⟩ := parse_unmatched failed trivial
    obtain ⟨root, mismatch, next, rooted, attempted, explained⟩ := read_unmatched failed trivial
    obtain ⟨token, deepest⟩ := Tree.attempt_failed_token compiled (compiled _ _ rooted) attempted
    rcases explained with failed | ⟨failure, complaint, other, _⟩
    · exact spares_explainMismatch deepest _ failed trivial
    · cases other
  · intro failure failed
    obtain ⟨stream, streamed, failed⟩ := parse_unmatched failed trivial
    obtain ⟨root, mismatch, next, rooted, attempted, explained⟩ := read_unmatched failed trivial
    have founded := Tree.attempt_failed_wellFounded compiled (compiled _ _ rooted) attempted
    obtain ⟨token, deepest⟩ := Tree.attempt_failed_token compiled (compiled _ _ rooted) attempted
    rcases explained with failed | ⟨_, complaint, ⟨⟩, explained⟩
    · exact absurd trivial (spares_explainMismatch deepest _ failed)
    · obtain ⟨found, deepestToo, rfl⟩ := explainMismatch_failure explained
      cases deepest.symm.trans deepestToo
      refine ⟨stream, root, next.cursor.furthest, token, next.cursor.expected, streamed, rooted,
        deepest, ?_, founded⟩
      have listing : next.cursor.expected.isEmpty = false := by
        simpa using founded.some
      simp only [failureText, listing, Bool.not_false, if_true]

end Registry

namespace Nest

def shape : Shape where
  name := "Nest"
  fields := [field]

def registry : Registry where
  shapes := [shape]

theorem registered : registry.Registered := by
  have added : ({} : Registry).addShape { name := "Nest" } =
      .ok ({ shapes := [{ name := "Nest" }] }, 0) := rfl
  have named : Text.isIdentifier "inner" = true := by decide
  have fielded :
      ({ shapes := [{ name := "Nest" }] } : Registry).register 0 field = .ok registry := by
    simp [Registry.register, Registry.shape, Shape.register, named, Except.map, Registry.setShape,
      registry, shape, field]
  exact .more (.more .nothing (.shape 0 "Nest" none none none added)) (.field 0 field fielded)

/-- What is reported about a parenthesis that closes nothing. The tree takes no token of the
text. -/
def unopened : ParseFailure where
  position := some (mark ")" 0).position
  token := some (mark ")" 0)
  what := "Unexpected token ')'; expected '(' or end of text"

set_option maxRecDepth 4000 in
theorem unopened_wellFounded :
    registry.Reached ∧
      (registry.parse { shape := 0 } { content := [')'] }).result = .error (.noMatch unopened) ∧
      ∃ stream root place expected, stream.token? place = some (mark ")" 0) ∧
        Tree.WellFounded ((registry.scannedFor { shape := 0 } { content := [')'] }).environment
          (registry.kindsFor { shape := 0 })) stream true ⟨some 0, 0⟩ root place expected := by
  have failed : (registry.parse { shape := 0 } { content := [')'] }).result =
      .error (.noMatch unopened) := by cbv
  have founded :=
    Registry.parse_failure_wellFounded registered.reached { shape := 0 } { content := [')'] }
  obtain ⟨stream, root, place, token, expected, _, _, there, same, founded⟩ :=
    founded.2 unopened failed
  have here : mark ")" 0 = token := Option.some.inj (congrArg ParseFailure.token same)
  exact ⟨registered.reached, failed, stream, root, place, expected, here ▸ there, founded⟩

end Nest

end RecordGrammar
