import RecordGrammar.Scanner.Reader

namespace RecordGrammar

open RecordGrammar.Text

/-! The lexemes of ordinary program text.

White space is skipped. There are comments to the end of the line and comments in brackets,
operators of one character each, decimal numbers with an optional fraction, words, some of which
are keywords, and strings in single or double quotes that stay on one line. In a string a backslash
makes the next character stand for itself, be it a quote or a line break.
-/

/-- The operators and the keywords that a scanner tells from other characters and words. -/
structure Lexemes where
  operators : List Char
  keywords : List String
deriving DecidableEq, Repr

namespace Lexemes

def standard : Lexemes where
  operators := "+-*/.\\:%|!?#&;,()<>\x7b\x7d[]=".toList
  keywords :=
    ["if", "function", "const", "for", "switch", "break", "instanceof", "with", "yield", "void",
     "this", "in", "goto", "import", "default", "debugger", "continue", "async", "await", "delete",
     "let", "else", "while", "class", "export", "private", "public", "var", "new", "return", "try",
     "catch", "typeof"]

/-- The operators among the members of a set of texts. Scanning looks at one character, so a
member of any other length never matches. -/
def operatorsOf (members : List String) : List Char :=
  members.filterMap fun member =>
    match member.toList with
    | [c] => some c
    | _ => none

/-- The content of a string after its opening quote, and how many characters the content and the
closing quote take. A line break that is not escaped, or the end of the text, leaves the string
without an end. -/
def stringContent? (mark : Char) : List Char → Option (List Char × Nat)
  | [] => none
  -- A backslash that ends the text escapes nothing.
  | [c] => if c == mark then some ([], 1) else none
  | c :: next :: rest =>
      if c == '\n' || c == '\r' then none
      else if c == mark then some ([], 1)
      else if c == '\\' then
        (stringContent? mark rest).map fun (content, width) => (next :: content, width + 2)
      else
        (stringContent? mark (next :: rest)).map fun (content, width) => (c :: content, width + 1)

/-- The width of a number: digits, and a fraction if a point and a digit follow. -/
def numberWidth (upcoming : List Char) : Nat :=
  let whole := (upcoming.takeWhile isPlainDigit).length
  match upcoming.drop whole with
  | point :: fraction =>
      let places := (fraction.takeWhile isPlainDigit).length
      if point == '.' && places != 0 then whole + 1 + places else whole
  | [] => whole

def lineCommentWidth (reader : Reader) : Int :=
  ((findFrom? ['\n'] reader.text reader.right).getD reader.text.length : Nat) - reader.right

def blockCommentWidth? (reader : Reader) : Option Int :=
  (findFrom? ['*', '/'] reader.text (reader.right + 2)).map fun stop =>
    (stop : Int) + 2 - reader.right

/-- The lexeme at the front of the upcoming text: its kind, its width and, where it differs from
the matched text, what it stands for. Otherwise it is said what was being tried. -/
def recognize (lexemes : Lexemes) (reader : Reader) (upcoming : List Char) :
    Except String (TokenKind × Int × Option Wording) :=
  match upcoming with
  | [] => .error "INITIAL"
  | c :: rest =>
      -- A comment wins over a slash among the operators, and an operator over a quote.
      if c == '/' && rest.head? == some '/' then .ok (.comment, lineCommentWidth reader, none)
      else if c == '/' && rest.head? == some '*' then
        match blockCommentWidth? reader with
        | some width => .ok (.comment, width, none)
        | none => .error "block comment"
      else if lexemes.operators.contains c then .ok (.operator, 1, none)
      else if isPlainDigit c then .ok (.number, numberWidth upcoming, none)
      else if startsPlainWord c then
        let width : Nat := 1 + (rest.takeWhile continuesPlainWord).length
        let word := String.ofList (reader.passing width)
        .ok (if lexemes.keywords.contains word then .keyword else .identifier, width, none)
      else if c == '\'' || c == '"' then
        match stringContent? c rest with
        | some (content, width) => .ok (.string, width + 1, some (.ofChars content))
        | none => .error "string"
      else .error "INITIAL"

/-- The next token, after any white space, or the token at the end of the text. White space stays
skipped if the scanner is stuck behind it. -/
def next (lexemes : Lexemes) (reader : Reader) : Except ScanError Token × Reader :=
  if !reader.hasMore then (.ok reader.finish.1, reader.finish.2)
  else
    match reader.upcoming? with
    | none => (.error .outOfRange, reader)
    | some upcoming =>
        let blanks := (upcoming.takeWhile isBlank).length
        let reader := if blanks == 0 then reader else reader.skip blanks
        if !reader.hasMore then (.ok reader.finish.1, reader.finish.2)
        else
          match lexemes.recognize reader (upcoming.drop blanks) with
          | .error condition => (.error (.blocked (reader.blocked condition)), reader)
          | .ok (kind, width, text) =>
              let (token, after) := reader.emit (some kind) width text
              (.ok token, after)

end Lexemes

end RecordGrammar
