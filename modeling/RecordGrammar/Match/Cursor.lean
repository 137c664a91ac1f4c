import RecordGrammar.Text.Slice
import RecordGrammar.Token

namespace RecordGrammar

open RecordGrammar.Text

/-! Cursors: a place in a stream of tokens that can be left and taken up again.

A checkpoint is an index, so going back is nothing but setting the index. A cursor also remembers
the furthest place where something specific was expected in vain, and what was expected there:
when a whole match fails, that is where the mistake in the text usually is.
-/

/-- Tokens of which the last one marks the end of the text. -/
structure TokenStream where
  tokens : Array Token
  ended : ∃ token, tokens.back? = some token ∧ token.isEnd = true

namespace TokenStream

/-- A list of tokens as a stream, if its last token marks the end. -/
def ofList? (tokens : List Token) : Option TokenStream :=
  match found : tokens.toArray.back? with
  | none => none
  | some token =>
      if marked : token.isEnd = true then some ⟨tokens.toArray, token, found, marked⟩ else none

def size (stream : TokenStream) : Nat := stream.tokens.size

theorem size_pos (stream : TokenStream) : 0 < stream.size := by
  obtain ⟨token, found, _⟩ := stream.ended
  rcases Nat.eq_zero_or_pos stream.tokens.size with none | some
  · simp [Array.back?, none] at found
  · exact some

/-- The token at an index that counts from the front. -/
def token? (stream : TokenStream) (index : Nat) : Option Token := stream.tokens[index]?

end TokenStream

/-- A match that did not come about: where it was begun, where it came to grief and why. This is
ordinary control data, which an alternative may make up for. -/
structure Mismatch where
  checkpoint : Int
  position : Option Position
  message : String
deriving DecidableEq, Repr

/-- A place in a stream of tokens, with the furthest failure so far. -/
structure Cursor where
  index : Nat := 0
  furthest : Nat := 0
  expected : List String := []
deriving DecidableEq, Repr, Inhabited

/-- What a cursor refuses to do: go to a place outside of its stream, or look at a token before
the first one. -/
inductive CursorError where
  | badCheckpoint (checkpoint : Int)
  | outOfRange
deriving DecidableEq, Repr

namespace Cursor

variable (stream : TokenStream) (cursor : Cursor)

def goto (index : Nat) : Cursor := { cursor with index }

/-- Goes to a checkpoint that lies within the stream or just behind its last token. -/
def restore (checkpoint : Int) : Except CursorError Cursor :=
  if 0 ≤ checkpoint ∧ checkpoint ≤ stream.size then .ok (cursor.goto checkpoint.toNat)
  else .error (.badCheckpoint checkpoint)

/-- The token at the cursor. Behind the stream there is none. -/
def current? : Option Token := stream.token? cursor.index

/-- The token so many places ahead. Behind the stream there is none; a place before its front
counts from its end. -/
def peek (offset : Int) : Except CursorError (Option Token) :=
  let place := cursor.index + offset
  if place < stream.size then
    match itemAt? stream.tokens.toList place with
    | some token => .ok (some token)
    | none => .error .outOfRange
  else .ok none

def advance : Cursor :=
  if cursor.index < stream.size then { cursor with index := cursor.index + 1 } else cursor

/-- Whether no token is left, but for one that marks the end. -/
def atEnd : Bool :=
  match cursor.current? stream with
  | none => true
  | some token => token.isEnd

def position? : Option Position := (cursor.current? stream).map (·.position)

/-- Notes that something was expected here in vain. Only the furthest place counts, and the same
expectation counts once. -/
def expect (wanted : String) : Cursor :=
  if cursor.furthest < cursor.index then
    { cursor with furthest := cursor.index, expected := [wanted] }
  else if cursor.index = cursor.furthest ∧ wanted ∉ cursor.expected then
    { cursor with expected := cursor.expected ++ [wanted] }
  else cursor

def mismatch (checkpoint : Int) (message : String) : Mismatch where
  checkpoint := checkpoint
  position := cursor.position? stream
  message := message

/-- A match fails, perhaps for want of something specific. -/
def fail (checkpoint : Int) (message : String) (wanted : Option String) : Mismatch × Cursor :=
  (cursor.mismatch stream checkpoint message,
   match wanted with
   | some wanted => cursor.expect wanted
   | none => cursor)

def deepest? : Option Token := stream.token? cursor.furthest

@[simp] theorem goto_index (index : Nat) : (cursor.goto index).index = index := rfl

@[simp] theorem goto_furthest (index : Nat) : (cursor.goto index).furthest = cursor.furthest := rfl

@[simp] theorem expect_index (wanted : String) : (cursor.expect wanted).index = cursor.index := by
  unfold expect
  split
  · rfl
  · split <;> rfl

theorem le_expect_furthest (wanted : String) :
    cursor.furthest ≤ (cursor.expect wanted).furthest := by
  unfold expect
  split
  · simp only; omega
  · split <;> simp

end Cursor

end RecordGrammar
