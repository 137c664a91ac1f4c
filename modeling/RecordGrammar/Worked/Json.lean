import RecordGrammar.Parse
import RecordGrammar.Worked.Lexeme

namespace RecordGrammar.Worked.Json

open RecordGrammar.Text

/-! JSON texts: objects, arrays, strings, numbers, truth values and null. -/

def number : Pattern :=
  .both (.optional (.one (.character '-')))
    (.both wholeNumber
      (.both fraction
        (.optional (.both (.one (.ofList ['e', 'E']))
          (.both (.optional (.one (.ofList ['-', '+']))) digits)))))

def string : Pattern :=
  .both (.one (.character '"'))
    (.both
      (.star (.either (.both (.one (.character '\\')) (.one .inLine))
        (.one (.complement (.ofList ['"', '\\'])))))
      (.one (.character '"')))

def keyword : Pattern :=
  .either (.ofText "true".toList) (.either (.ofText "false".toList) (.ofText "null".toList))

/-- The number that four hexadecimal digits at the front of a text stand for, and the text after
them. -/
def hexCode? : List Char → Option (Nat × List Char)
  | a :: b :: c :: d :: rest => do
      let a ← hexValue? a
      let b ← hexValue? b
      let c ← hexValue? c
      let d ← hexValue? d
      return (((a * 16 + b) * 16 + c) * 16 + d, rest)
  | _ => none

/-- What a character after a backslash stands for. -/
def escaped (c : Char) : Char :=
  if c == 'b' then '\x08'
  else if c == 't' then '\t'
  else if c == 'n' then '\n'
  else if c == 'f' then '\x0c'
  else if c == 'r' then '\r'
  else c

/-- Resolves the escapes of a text. A backslash before a line feed, or at the end, stays. A number
spells one code point, and two that are halves of a pair stay two. Every step takes a character, so
the length of the text is fuel enough. -/
def unescapeWithin : Nat → List Char → Wording
  | 0, _ => []
  | _, [] => []
  | _, [c] => [.char c]
  | fuel + 1, c :: next :: rest =>
      if c != '\\' || next == '\n' then .char c :: unescapeWithin fuel (next :: rest)
      else
        match if next == 'u' then hexCode? rest else none with
        | some (code, after) => .ofNat code :: unescapeWithin fuel after
        | none => .char (escaped next) :: unescapeWithin fuel rest

def unescape (text : List Char) : Wording := unescapeWithin text.length text

/-- The text of a string without its quotes and escapes. -/
def unquote (text : List Char) : Wording := unescape (slice text 1 (-1))

def scanner : Scanner where
  dialect := .table
    [.ignore blanks 0,
     .token "Number" number (some .number) 0,
     { ScanRule.token "String" string (some .string) 0 with
       meaning := fun text => some (unquote text) },
     .token "Operator" (.one (.ofList [']', '[', '\x7b', '\x7d', ':', ','])) (some .operator) 0,
     .token "Keyword" keyword (some .keyword) 0]
  kinds := [("Number", some .number), ("String", some .string), ("Operator", some .operator),
    ("Keyword", some .keyword)]
  omitted := []

/-- An object: its pairs, in order. -/
def object : Shape where
  name := "JsonObject"
  fields :=
    [{ name := "pairs", rule := "'\x7b' @@ (',' @@)* '\x7d' | '\x7b' '\x7d'", kind := .nested
       element := some (.named "Pair"), many := true }]

def pair : Shape where
  name := "Pair"
  fields :=
    [{ name := "key", rule := "@String ':'" },
     { name := "value", rule := "@@", kind := .nested, element := some (.named "JsonValue") }]

/-- A value of any sort. Each field goes on with the alternatives that the one before it began. -/
def value : Shape where
  name := "JsonValue"
  fields :=
    [{ name := "text", rule := "@String" },
     { name := "number", rule := "| @Number", kind := .scalar },
     { name := "items", rule := "| '[' @@ (',' @@)* ']' | '[' ']'", kind := .nested
       element := some (.named "JsonValue"), many := true },
     { name := "truth", rule := "| @('true' | 'false')" },
     { name := "null", rule := "| 'null'", kind := .boolean },
     { name := "object", rule := "| @@", kind := .nested, element := some (.named "JsonObject") }]

def registry : Registry := .ofGrammar "json" scanner [object, pair, value]

def objectId : ShapeId := 0

def pairId : ShapeId := 1

def valueId : ShapeId := 2

/-- Parses a text that is an instance of one of the shapes. -/
def parse (shape : ShapeId) (text : List Char) : Registry.Report Value :=
  registry.parse { shape } { content := text }

/-- The value of a name among named values, or nothing. -/
def part (values : List (String × Value)) (name : String) : Value :=
  ((values.find? fun entry => entry.1 == name).map (·.2)).getD .null

/-- Joins dictionaries into one. The last value of a key counts. -/
def join (items : List Value) : Value :=
  .dictionary (items.foldl (fun known item =>
    match item with
    | .dictionary entries =>
        entries.foldl (fun known entry => Binding.put known entry.1 entry.2) known
    | _ => known) [])

def itemsOf : Value → List Value
  | .list items => items
  | _ => []

/-- Plain data for a record, given its attributes and the plain data for them. A pair becomes a
dictionary of its own, and an object joins those of its pairs. -/
def recordData (name : String) (attributes plain : List (String × Value)) : Value :=
  if name == object.name then join (itemsOf (part plain "pairs"))
  else if name == pair.name then
    match part attributes "key" with
    | .text key => .dictionary [(key, part plain "value")]
    | _ => .dictionary []
  else if !(part attributes "text").isNull then part plain "text"
  else if !(part attributes "number").isNull then part plain "number"
  else if !(part attributes "truth").isNull then
    match part attributes "truth" with
    | .text word => .bool (word == .ofString "true")
    | _ => .bool false
  else
    match part attributes "null" with
    | .bool true => .null
    | _ =>
        if !(part attributes "object").isNull then part plain "object"
        else part plain "items"

mutual
def data : Value → Value
  | .list items => .list (dataItems items)
  | .entity _ name _ attributes => recordData name attributes (dataAttributes attributes)
  | other => other

def dataItems : List Value → List Value
  | [] => []
  | item :: rest => data item :: dataItems rest

def dataAttributes : List (String × Value) → List (String × Value)
  | [] => []
  | (name, value) :: rest => (name, data value) :: dataAttributes rest
end

end RecordGrammar.Worked.Json
