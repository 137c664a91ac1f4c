import RecordGrammar.Rule.Error
import RecordGrammar.Rule.Field

namespace RecordGrammar

open RecordGrammar.Text

/-! The tokens of a rule.

A rule is written with literals in quotes, names, the bar, and the marks `( ) + ? * @`; white space
separates and means nothing else. In a literal a backslash makes the next character stand for
itself. Every token knows the field that its rule belongs to.
-/

/-- The sorts of tokens in a rule. -/
inductive RuleTokenKind where
  | literal
  | operator
  | branch
  | identifier
deriving DecidableEq, Repr

/-- A token of a rule. `ordinal` tells the fields of a shape apart, which may look alike. -/
structure RuleToken where
  text : String
  kind : RuleTokenKind
  offset : Nat
  field : Field
  ordinal : Nat
deriving DecidableEq, Repr

namespace RuleToken

def isMark (token : RuleToken) (mark : String) : Bool :=
  token.kind == .operator && token.text == mark

def complain (token : RuleToken) (problem : RuleProblem) : RuleError where
  problem := problem
  rule := token.field.rule
  field := token.field.name
  offset := some token.offset

/-- The marks that are tokens by themselves, but for the bar. -/
def marks : List Char := ['(', ')', '+', '?', '*', '@']

/-- The text of a literal after its opening quote, and how many characters the text and the
closing quote take. -/
def literalText? (mark : Char) : List Char → Option (List Char × Nat)
  | [] => none
  | c :: rest =>
      if c == mark then some ([], 1)
      else if c == '\\' then
        match rest with
        | [] => none
        | escaped :: after =>
            (literalText? mark after).map fun (text, width) => (escaped :: text, width + 2)
      else (literalText? mark rest).map fun (text, width) => (c :: text, width + 1)

/-- The tokens of the rest of a rule that starts at an offset. Every step takes at least one
character, so the length of the rest is fuel enough. -/
def lexFrom (field : Field) (ordinal : Nat) :
    Nat → Nat → List Char → Except RuleError (List RuleToken)
  | _, _, [] => .ok []
  | 0, _, _ => .ok []
  | fuel + 1, offset, c :: rest =>
      let emit (text : List Char) (kind : RuleTokenKind) (width : Nat) :
          Except RuleError (List RuleToken) := do
        let later ← lexFrom field ordinal fuel (offset + width) (rest.drop (width - 1))
        return { text := String.ofList text, kind, offset, field, ordinal } :: later
      let complain (problem : RuleProblem) : Except RuleError (List RuleToken) :=
        .error { problem, rule := field.rule, field := field.name, offset := some offset }
      if isBlank c then lexFrom field ordinal fuel (offset + 1) rest
      else if c == '|' then emit [c] .branch 1
      else if marks.contains c then emit [c] .operator 1
      else if c == '\'' || c == '"' then
        match literalText? c rest with
        | some (text, width) => emit text .literal (width + 1)
        | none => complain (.missingQuote c)
      else if startsPlainWord c then
        let word := c :: rest.takeWhile continuesPlainWord
        emit word .identifier word.length
      else complain (.invalidCharacter c)

def lex (field : Field) (ordinal : Nat) : Except RuleError (List RuleToken) :=
  let rule := field.rule.toList
  lexFrom field ordinal rule.length 0 rule

/-- The tokens of all the rules of a shape, as one stream in the order of the fields. -/
def lexAll (ordinal : Nat) : List Field → Except RuleError (List RuleToken)
  | [] => .ok []
  | field :: rest => do
      let own ← lex field ordinal
      let later ← lexAll (ordinal + 1) rest
      return own ++ later

/-- Whether two capture marks stand side by side, which is how a rule refers to another shape. -/
def mentionsReference : List RuleToken → Bool
  | first :: second :: rest =>
      (first.isMark "@" && second.isMark "@") || mentionsReference (second :: rest)
  | _ => false

end RuleToken

end RecordGrammar
