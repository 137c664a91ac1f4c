import RecordGrammar.Registry

namespace RecordGrammar

open RecordGrammar.Text
open RecordGrammar.Source (SourceText)

/-! Parsing: from a text to a record of a shape, or to an account of why there is none. -/

namespace Tree

/-- Enough fuel to run a tree that does not refer to itself without taking a token. Between two
tokens a run passes every node of every tree at most once. -/
def fuelFor (weight : Nat) (tree : Tree) (stream : TokenStream) : Nat :=
  (stream.size + 1) * (weight + tree.size + 1) + 1

/-- Runs a tree and, if it has to account for the whole text, fails when tokens are left over. -/
def attempt (env : Environment) (weight : Nat) (stream : TokenStream) (complete : Bool)
    (site : Site) (tree : Tree) (state : MatchState) : Outcome :=
  match tree.run env stream (tree.fuelFor weight stream) site state with
  | .matched bindings next =>
      if complete && !next.cursor.atEnd stream then
        let (mismatch, cursor) :=
          next.cursor.fail stream next.index "expected end of text" (some "end of text")
        .failed mismatch { next with cursor }
      else .matched bindings next
  | other => other

end Tree

/-- What is said about a failed match: what was found at the furthest place and what was expected
there. If nothing in particular was expected, the mismatch may have something to say. -/
def failureText (token : Token) (expected : List String) (mismatch : Mismatch) : String :=
  let found := if token.isEnd then "end of text" else "token " ++ quoteWording token.text
  if !expected.isEmpty then
    "Unexpected " ++ found ++ "; expected " ++ " or ".intercalate expected
  else if mismatch.message == "" then "Unexpected " ++ found
  else mismatch.message

/-- The account of a failed match, and the complaint about the text. -/
def explainMismatch (source : SourceText) (stream : TokenStream) (cursor : Cursor)
    (mismatch : Mismatch) : Except Fault (ParseFailure × String) :=
  match cursor.deepest? stream with
  | none => .error .noToken
  | some token =>
      let what := failureText token cursor.expected mismatch
      let start := token.position.index
      match source.complaint start (start + max 1 token.text.length) what with
      | .error error => .error (.lines error)
      | .ok complaint =>
          .ok ({ position := some token.position, token := some token, what }, complaint)

def explainBlocked (source : SourceText) (blocked : Blocked) : Except Source.LineError String :=
  let start := blocked.position.index
  source.complaint start (start + 1)
    ("Lexical scan got stuck in condition " ++ quote blocked.condition ++ ".")

def logLine (complaint : String) : String := complaint ++ "\n"

/-- A shape to parse into, a scanner other than the shape's own, and whether the whole text has to
be accounted for. -/
structure Parser where
  shape : ShapeId
  scanner : Option Nat := none
  complete : Bool := true
deriving Repr

namespace Registry

variable (registry : Registry)

/-- Scans a text and leaves the scanner where it stopped. -/
def scanText (scanner : Nat) (text : List Char) : Scanner.Scan × Registry :=
  let scan := (registry.scanner scanner).scan text
  (scan, registry.leaveReader scanner scan.reader)

/-- The tokens of a scan as a stream, unless they break off. -/
def streamOf (scan : Scanner.Scan) : Except Fault TokenStream :=
  match scan.error, TokenStream.ofList? scan.tokens with
  | some error, _ => .error (.scan error)
  | none, some stream => .ok stream
  | none, none => .error .endlessStream

/-- What becomes of an outcome: the bindings are applied to a new record, and a mismatch is
explained. -/
def conclude (env : Environment) (shape : ShapeId) (source : SourceText) (stream : TokenStream) :
    Outcome → Except Fault Value × List Event × String
  | .matched bindings state =>
      let events := (state.note (.made shape)).trace.reverse
      match env.fresh shape with
      | .error fault => (.error fault, events, "")
      | .ok blank => ((env.fill bindings blank).mapError .binding, events, "")
  | .failed mismatch state =>
      match explainMismatch source stream state.cursor mismatch with
      | .error fault => (.error fault, state.trace.reverse, "")
      | .ok (failure, complaint) =>
          (.error (.noMatch failure), state.trace.reverse, logLine complaint)
  | .faulted fault state => (.error fault, state.trace.reverse, "")
  | .broken breach state => (.error breach.fault, state.trace.reverse, "")
  | .exhausted => (.error .exhausted, [], "")

/-- The log about a text that could not be scanned. If not even a complaint is possible, the
reason for that takes the place of the fault. -/
def reportScan (source : SourceText) (fault : Fault) : Except Fault Value × String :=
  match fault with
  | .scan (.blocked blocked) =>
      match explainBlocked source blocked with
      | .error error => (.error (.lines error), "")
      | .ok complaint => (.error fault, logLine complaint)
  | other => (.error other, "")

def scannerFor (parser : Parser) : Registry × Nat :=
  match parser.scanner with
  | some scanner => (registry, scanner)
  | none => registry.scannerOf parser.shape

/-- Parses a text: compiles the shape if need be, scans the text, matches the tokens, and fills a
record. -/
def parse (parser : Parser) (source : SourceText) : Report Value :=
  let (scanning, scanner) := registry.scannerFor parser
  let kinds := scanning.kindsOf scanner
  let compiled := scanning.compile parser.shape kinds
  -- A mistake in the rules shows before the text is looked at.
  match compiled.result with
  | .error fault => { compiled with result := .error fault }
  | .ok () =>
      let (scan, scanned) := compiled.registry.scanText scanner source.content
      match streamOf scan with
      | .error fault =>
          let (result, log) := reportScan source fault
          { result, registry := scanned, warnings := compiled.warnings, log }
      | .ok stream =>
          let env := scanned.environment kinds
          match env.root parser.shape with
          | .error fault =>
              { result := .error fault, registry := scanned, warnings := compiled.warnings }
          | .ok root =>
              let outcome :=
                root.attempt env (scanned.weight kinds) stream parser.complete
                  ⟨some parser.shape, 0⟩ {}
              let (result, events, log) := conclude env parser.shape source stream outcome
              -- Shapes that were reached stay compiled and slots resolved, however the match ended.
              let (settled, warnings) := settle scanned kinds events
              { result, registry := settled, warnings := compiled.warnings ++ warnings, log }

/-- How a match by itself ends: the cursor afterwards, the token at the furthest failure, and the
mismatch or what became of the target. -/
structure MatchResult where
  cursor : Cursor
  deepest : Option Token
  result : Except Mismatch Value

/-- What becomes of an outcome when the target is at hand and nothing has to be explained. -/
def applyOutcome (stream : TokenStream) (target : Except Fault Value) :
    Outcome → Except Fault MatchResult × List Event
  | .matched bindings state =>
      (do
        let target ← target
        let value ← (Binding.applyAll bindings target).mapError .binding
        return { cursor := state.cursor, deepest := state.cursor.deepest? stream
                 result := .ok value },
       state.trace.reverse)
  | .failed mismatch state =>
      (.ok { cursor := state.cursor, deepest := state.cursor.deepest? stream
             result := .error mismatch },
       state.trace.reverse)
  | .faulted fault state => (.error fault, state.trace.reverse)
  | .broken breach state => (.error breach.fault, state.trace.reverse)
  | .exhausted => (.error .exhausted, [])

def eventsToMake (shape : ShapeId) : Outcome → List Event
  | .matched _ _ => [.made shape]
  | _ => []

/-- Scans a text and matches the shape of a parser from one of the tokens on. Whether tokens are
left over does not matter. -/
def matchShape (parser : Parser) (text : List Char) (start : Int) : Report MatchResult :=
  let shape := parser.shape
  let (scanning, scanner) := registry.scannerFor parser
  let kinds := scanning.kindsOf scanner
  let (scan, scanned) := scanning.scanText scanner text
  match streamOf scan with
  | .error fault => { result := .error fault, registry := scanned }
  | .ok stream =>
      -- Unlike in a whole parse, the text and the place come before the rules.
      match Cursor.restore stream {} start with
      | .error error => { result := .error (.cursor error), registry := scanned }
      | .ok cursor =>
          let compiled := scanned.compile shape kinds
          match compiled.result with
          | .error fault => { compiled with result := .error fault }
          | .ok () =>
              let env := compiled.registry.environment kinds
              match env.root shape with
              | .error fault => { compiled with result := .error fault }
              | .ok root =>
                  let outcome :=
                    root.attempt env (compiled.registry.weight kinds) stream false
                      ⟨some shape, 0⟩ { cursor }
                  let (result, events) := applyOutcome stream (env.fresh shape) outcome
                  let (settled, warnings) :=
                    settle compiled.registry kinds (events ++ eventsToMake shape outcome)
                  { result, registry := settled, warnings := compiled.warnings ++ warnings }

/-- Scans a text and matches a tree that belongs to no shape from the first token on. -/
def matchTree (tree : Tree) (scanner : Nat) (text : List Char) (target : Value) :
    Report MatchResult :=
  let kinds := registry.kindsOf scanner
  let (scan, scanned) := registry.scanText scanner text
  match streamOf scan with
  | .error fault => { result := .error fault, registry := scanned }
  | .ok stream =>
      let env := scanned.environment kinds
      let outcome := tree.attempt env (scanned.weight kinds) stream false ⟨none, 0⟩ {}
      let (result, events) := applyOutcome stream (.ok target) outcome
      let (settled, warnings) := settle scanned kinds events
      { result, registry := settled, warnings }

end Registry

end RecordGrammar
