import RecordGrammar.Scanner.Lexemes
import RecordGrammar.Scanner.Table

namespace RecordGrammar

/-! Scanners: what turns a text into the tokens that a grammar sees. -/

/-- What is known of a scanner of any other make: what one call after another gives in a text, and
how many calls lead to its end at most. -/
structure Answers where
  next : List Char → Nat → Except ScanError Token
  calls : List Char → Nat

inductive Dialect where
  | lexemes (lexemes : Lexemes)
  | table (rules : List ScanRule)
  | answers (answers : Answers)

/-- A scanner: how it recognizes tokens, the names that rules may capture its tokens by, and the
kinds of tokens that it leaves out. -/
structure Scanner where
  dialect : Dialect
  kinds : KindTable
  omitted : List TokenKind

/-- Why a rule is not added to a scanner: its name is taken, or the scanner goes by no rules. -/
inductive ScanRuleError where
  | alreadyDefined (name : String)
  | noTable
deriving DecidableEq, Repr

namespace Scanner

/-- The scanner of ordinary program text, which leaves out the comments. -/
def standard : Scanner where
  dialect := .lexemes .standard
  kinds := .standard
  omitted := [.comment]

def blank (omitted : List TokenKind) : Scanner where
  dialect := .table []
  kinds := []
  omitted := omitted

/-- Adds a rule to a scanner with a table. The name of a rule becomes a name to capture by, also
if the rule has no kind, and it has to be new. -/
def addRule (scanner : Scanner) (rule : ScanRule) : Except ScanRuleError Scanner :=
  match scanner.dialect, rule.name with
  | .table rules, none => .ok { scanner with dialect := .table (rules ++ [rule]) }
  | .table rules, some name =>
      if scanner.kinds.knows name then .error (.alreadyDefined name)
      else
        .ok { scanner with
              dialect := .table (rules ++ [rule])
              kinds := scanner.kinds ++ [(name, rule.kind)] }
  | _, _ => .error .noTable

/-- The next token, left out or not. -/
def next (scanner : Scanner) (reader : Reader) : Except ScanError Token × Reader :=
  match scanner.dialect with
  | .lexemes lexemes => lexemes.next reader
  | .table rules => ScanRule.next rules reader
  | .answers answers =>
      -- Nothing but the number of the calls so far is kept in the reader.
      (answers.next reader.text reader.right.toNat,
       { reader with left := reader.right, right := reader.right + 1 })

def omits (scanner : Scanner) (token : Token) : Bool :=
  token.kind.any scanner.omitted.contains

/-- What scanning a text gives: tokens, an error if they break off, and the reader as it was left
behind. -/
structure Scan where
  tokens : List Token
  error : Option ScanError
  reader : Reader

/-- The tokens from a place on, up to the first one that marks the end. -/
def scanFrom (scanner : Scanner) : Nat → Reader → Scan
  | 0, reader => ⟨[], none, reader⟩
  | fuel + 1, reader =>
      match scanner.next reader with
      | (.error error, after) => ⟨[], some error, after⟩
      | (.ok token, after) =>
          if scanner.omits token then scanFrom scanner fuel after
          else if token.isEnd then ⟨[token], none, after⟩
          else
            let later := scanFrom scanner fuel after
            { later with tokens := token :: later.tokens }

/-- How many calls lead to the end of a text. By lexemes or a table every token but the last takes
at least one character, so one call more than there are characters is enough. -/
def calls (scanner : Scanner) (text : List Char) : Nat :=
  match scanner.dialect with
  | .lexemes _ | .table _ => text.length + 1
  | .answers answers => answers.calls text

def scan (scanner : Scanner) (text : List Char) : Scan :=
  scanner.scanFrom (scanner.calls text) (Reader.start text)

end Scanner

end RecordGrammar
