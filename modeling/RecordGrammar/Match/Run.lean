import RecordGrammar.Fault
import RecordGrammar.Tree.Basic

namespace RecordGrammar

/-! Matching: running a match tree against a stream of tokens.

A match either succeeds, with bindings and with the cursor just behind the tokens that it took, or
it fails, with the cursor back where it was. Choice is ordered and repetition takes what it can:
nothing that has succeeded is ever tried again in another way. A fault is something else than a
failure and ends the whole attempt; so would a breach of what a match relies on.

What lies outside of the tree at hand is given by an environment, which does not change during an
attempt. The shapes that an attempt makes use of are noted in a trace.
-/

/-- A reference in a tree: the shape that the tree belongs to and the number of references in that
tree that come before it. A tree on its own belongs to no shape. -/
structure Site where
  owner : Option ShapeId
  slot : Nat
deriving DecidableEq, Repr

def Site.after (site : Site) (tree : Tree) : Site :=
  { site with slot := site.slot + tree.referenceCount }

/-- What references stand for: the shape that is meant at a site, the tree of a shape, a new record
of a shape with nothing bound to it yet, and what bindings make of it. -/
structure Environment where
  resolve : Site → ShapeRef → Except Fault ShapeId
  root : ShapeId → Except Fault Tree
  fresh : ShapeId → Except Fault Value
  fill : List Binding → Value → Except BindingError Value

/-- What happens to shapes in the course of a match: one is reached from a site, and a record of
one is made. -/
inductive Event where
  | reached (site : Site) (shape : ShapeId)
  | made (shape : ShapeId)
deriving DecidableEq, Repr

/-- Where a match stands. The trace has the latest event first. -/
structure MatchState where
  cursor : Cursor := {}
  trace : List Event := []
deriving DecidableEq, Repr, Inhabited

namespace MatchState

def index (state : MatchState) : Nat := state.cursor.index

/-- Goes to an index. What was expected on the way stays noted. -/
def goto (state : MatchState) (index : Nat) : MatchState :=
  { state with cursor := state.cursor.goto index }

/-- Goes back to a checkpoint, which has to lie within the stream or just behind it. -/
def restore (stream : TokenStream) (state : MatchState) (checkpoint : Nat) :
    Except CursorError MatchState :=
  (state.cursor.restore stream checkpoint).map fun cursor => { state with cursor }

def note (state : MatchState) (event : Event) : MatchState :=
  { state with trace := event :: state.trace }

@[simp] theorem goto_index (state : MatchState) (index : Nat) :
    (state.goto index).index = index := rfl

@[simp] theorem goto_furthest (state : MatchState) (index : Nat) :
    (state.goto index).cursor.furthest = state.cursor.furthest := rfl

@[simp] theorem goto_self (state : MatchState) : state.goto state.index = state := rfl

theorem goto_eq_self {state : MatchState} {index : Nat} (here : state.index = index) :
    state.goto index = state := by
  rw [← here, goto_self]

@[simp] theorem note_index (state : MatchState) (event : Event) :
    (state.note event).index = state.index := rfl

theorem restore_eq {stream : TokenStream} {checkpoint : Nat} (state : MatchState)
    (within : checkpoint ≤ stream.size) :
    state.restore stream checkpoint = .ok (state.goto checkpoint) := by
  have allowed : (0 : Int) ≤ checkpoint ∧ (checkpoint : Int) ≤ stream.size := by omega
  simp only [restore, Cursor.restore, allowed, and_self, if_true, Int.toNat_natCast,
    Except.map, goto]

end MatchState

/-- What a match must never come to: it goes back to a place outside of its stream, or a group has
too few turns although none of them has failed. -/
inductive Breach where
  | cursor (error : CursorError)
  | noMismatch
deriving DecidableEq, Repr

/-- The fault that a breach would show as. Without a mismatch, nothing at all would be taken for
what is to be applied. -/
def Breach.fault : Breach → Fault
  | .cursor error => .cursor error
  | .noMismatch => .member (.notCallable Value.null.typeName)

/-- How a match ends. It is `exhausted` if it was given too little fuel. -/
inductive Outcome where
  | matched (bindings : List Binding) (state : MatchState)
  | failed (mismatch : Mismatch) (state : MatchState)
  | faulted (fault : Fault) (state : MatchState)
  | broken (breach : Breach) (state : MatchState)
  | exhausted
deriving Inhabited

/-- Goes back to a checkpoint and on from there. -/
def MatchState.resume (stream : TokenStream) (state : MatchState) (checkpoint : Nat)
    (next : MatchState → Outcome) : Outcome :=
  match state.restore stream checkpoint with
  | .ok back => next back
  | .error error => .broken (.cursor error) state

/-- A checkpoint within the stream can be gone back to. -/
theorem MatchState.resume_eq {stream : TokenStream} {checkpoint : Nat} (state : MatchState)
    (next : MatchState → Outcome) (within : checkpoint ≤ stream.size) :
    state.resume stream checkpoint next = next (state.goto checkpoint) := by
  simp only [resume, state.restore_eq within]

namespace Outcome

/-- Puts the bindings of an earlier match in front of those of a later one. -/
def prepend (bindings : List Binding) : Outcome → Outcome
  | .matched later state => .matched (bindings ++ later) state
  | other => other

/-- After a failure, goes back to a checkpoint. -/
def orRestore (stream : TokenStream) (checkpoint : Nat) : Outcome → Outcome
  | .failed mismatch state => state.resume stream checkpoint (.failed mismatch)
  | other => other

end Outcome

namespace Leaf

/-- What taking a token binds. A literal sets no more than a flag, and only in a field for flags. -/
def bind (leaf : Leaf) (token : Token) : Except CoercionError (List Binding) :=
  match leaf with
  | .literal _ field =>
      .ok (if field.kind = .boolean then [.assign field.name (.bool true)] else [])
  | .captureLiteral _ field | .captureKind _ _ field =>
      (field.kind.coerce token.text token.kind).map fun value => [.assign field.name value]

/-- The end of a match of a leaf that does not take the current token. -/
def refuse (stream : TokenStream) (message wanted : String) (state : MatchState) : Outcome :=
  .failed (state.cursor.mismatch stream state.index message)
    { state with cursor := state.cursor.expect wanted }

/-- Matches a leaf. It takes one token, but never one that marks the end, and fails as well if the
text of the token does not become a value for its field. -/
def run (stream : TokenStream) (leaf : Leaf) (state : MatchState) : Outcome :=
  match (state.cursor.current? stream).filter fun token => !token.isEnd && leaf.accepts token with
  | none => refuse stream ("expected " ++ leaf.expectation) leaf.expectation state
  | some token =>
      match leaf.bind token with
      | .ok bindings => .matched bindings { state with cursor := state.cursor.advance stream }
      -- Another branch may still take the token, so this is a refusal and no fault.
      | .error error =>
          refuse stream error.message (leaf.expectation ++ " as " ++ leaf.field.kind.word) state

end Leaf

/-- The binding that gives a record to a field: a field that holds many gets one more. -/
def Field.holding (field : Field) (item : Value) : Binding :=
  if field.many then .append field.name item else .assign field.name item

namespace Tree

def inOrder (step : Site → Tree → MatchState → Outcome) :
    Site → List Tree → MatchState → Outcome
  | _, [], state => .matched [] state
  | site, member :: rest, state =>
      match step site member state with
      | .matched bindings next => (inOrder step (site.after member) rest next).prepend bindings
      | other => other

/-- Runs trees from the same place until one does not fail. If all of them fail, so does the
`fallback`, which is given the state after the last one. -/
def firstOf (stream : TokenStream) (step : Site → Tree → MatchState → Outcome)
    (fallback : MatchState → Outcome) : Site → List Tree → MatchState → Outcome
  | _, [], state => fallback state
  | site, branch :: rest, state =>
      match step site branch state with
      | .failed _ next =>
          next.resume stream state.index (firstOf stream step fallback (site.after branch) rest)
      | other => other

/-- Ends the turns of a group that was entered at a checkpoint. With fewer turns than it needs, the
group fails like the turn that failed. -/
def endTurns (stream : TokenStream) (bound : Bound) (entry taken : Nat)
    (failure : Option Mismatch) (state : MatchState) : Outcome :=
  if taken < bound.least then
    state.resume stream entry fun back =>
      match failure with
      | some mismatch => .failed mismatch back
      -- Only a turn that failed leaves too few of them.
      | none => .broken .noMismatch back
  else .matched [] state

/-- Takes turns until one fails or takes no token, or until there were as many as are allowed. So
many turns are `taken` already. Every turn but the last takes a token. -/
def turns (stream : TokenStream) (step : MatchState → Outcome) (bound : Bound) (entry : Nat) :
    Nat → Nat → MatchState → Outcome
  | 0, taken, state =>
      if bound.allows taken then .exhausted else endTurns stream bound entry taken none state
  | fuel + 1, taken, state =>
      if bound.allows taken then
        match step state with
        | .matched bindings next =>
            -- A turn that took nothing would be followed by such turns without end.
            if next.index = state.index then
              (endTurns stream bound entry (taken + 1) none next).prepend bindings
            else (turns stream step bound entry fuel (taken + 1) next).prepend bindings
        | .failed mismatch next =>
            next.resume stream state.index
              (endTurns stream bound entry taken (some mismatch))
        | other => other
      else endTurns stream bound entry taken none state

/-- Takes as many turns as a bound allows. No more turns than there are tokens take a token. -/
def repeated (stream : TokenStream) (step : MatchState → Outcome) (bound : Bound)
    (state : MatchState) : Outcome :=
  turns stream step bound state.index (stream.size + 1) 0 state

/-- Makes a record of a shape and applies what its tree has bound, for the field of a reference. -/
def complete (env : Environment) (shape : ShapeId) (field : Field) (bindings : List Binding)
    (state : MatchState) : Outcome :=
  let noted := state.note (.made shape)
  match env.fresh shape with
  | .error fault => .faulted fault noted
  | .ok blank =>
      match env.fill bindings blank with
      | .error error => .faulted (.binding error) noted
      | .ok item => .matched [field.holding item] noted

/-- Runs a tree, given a way to run the trees that it holds or refers to. -/
def runNode (env : Environment) (stream : TokenStream)
    (step : Site → Tree → MatchState → Outcome) (site : Site) (tree : Tree)
    (state : MatchState) : Outcome :=
  match tree with
  | .empty => .matched [] state
  | .leaf taker => taker.run stream state
  | .sequence members => (inOrder step site members state).orRestore stream state.index
  | .alternation branches =>
      firstOf stream step
        (fun next => .failed (next.cursor.mismatch stream state.index
          s!"expected one of {branches.length} alternatives") next)
        site branches state
  | .repetition inner bound => repeated stream (step site inner) bound state
  | .reference target field =>
      match env.resolve site target with
      | .error fault => .faulted fault state
      | .ok shape =>
          -- Noted before the tree is run: the slot keeps its answer even if the match fails.
          let noted := state.note (.reached site shape)
          match env.root shape with
          | .error fault => .faulted fault noted
          | .ok root =>
              match step ⟨some shape, 0⟩ root noted with
              | .matched bindings next => complete env shape field bindings next
              | other => other.orRestore stream state.index

/-- Runs a tree. `fuel` bounds how deeply runs are nested. -/
def run (env : Environment) (stream : TokenStream) : Nat → Site → Tree → MatchState → Outcome
  | 0, _, _, _ => .exhausted
  | fuel + 1, site, tree, state => runNode env stream (run env stream fuel) site tree state

end Tree

end RecordGrammar
