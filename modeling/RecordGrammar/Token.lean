import RecordGrammar.Text.Quoted
import RecordGrammar.Text.Slice

namespace RecordGrammar

/-! Tokens: what a scanner makes of a text and what a grammar matches against. -/

/-- What sort of thing a token is. The kinds form a closed set. -/
inductive TokenKind where
  | endOfText
  | identifier
  | comment
  | string
  | number
  | keyword
  | white
  | operator
deriving DecidableEq, Repr, Inhabited

/-- A place in a text. Lines count from one; columns and indexes count from zero. Whoever makes up
a position of their own may also count back from there. -/
structure Position where
  line : Int
  column : Int
  index : Int
deriving DecidableEq, Repr, Inhabited

def Position.start : Position where
  line := 1
  column := 0
  index := 0

/-- A position for people, who count columns from one. -/
def Position.describe (position : Position) : String :=
  s!"line {position.line}, column {position.column + 1}"

/-- A piece of text that a scanner recognized. The text is what the token stands for, which may
differ from what was matched: a string token has lost its quotes. A token without a kind is
possible, and nothing but a capture of no kind accepts it. -/
structure Token where
  kind : Option TokenKind
  text : Text.Wording
  position : Position
deriving DecidableEq, Repr, Inhabited

def Token.isEnd (token : Token) : Bool :=
  token.kind == some .endOfText

/-- The names that rules may capture tokens by, in the order of their definition. A name without
a kind is known, and no token answers to it. -/
abbrev KindTable := List (String × Option TokenKind)

namespace KindTable

/-- The kind that a name stands for, if the name is known. -/
def kindOf? (table : KindTable) (name : String) : Option (Option TokenKind) :=
  (table.find? fun entry => entry.1 == name).map (·.2)

def knows (table : KindTable) (name : String) : Bool :=
  table.any fun entry => entry.1 == name

def sorted (table : KindTable) : KindTable :=
  table.mergeSort fun left right => decide (left.1 ≤ right.1)

/-- The names a scanner of ordinary program text goes by. -/
def standard : KindTable :=
  [("String", some .string), ("Number", some .number), ("Ident", some .identifier),
   ("Keyword", some .keyword), ("Operator", some .operator)]

end KindTable

/-- A scanner is stuck: at this place it can recognize no token. The condition says what it was
trying to do. -/
structure Blocked where
  position : Position
  condition : String
deriving DecidableEq, Repr

def Blocked.message (blocked : Blocked) : String :=
  let place := blocked.position
  s!"(Position(line={place.line}, column={place.column}, index={place.index}), " ++
    Text.quote blocked.condition ++ ")"

end RecordGrammar
