import RecordGrammar.Source.Picture
import RecordGrammar.Text.Quoted

namespace RecordGrammar

open RecordGrammar.Text

/-! What may be wrong with a rule, and how it is said. -/

/-- The mistakes in rules. -/
inductive RuleProblem where
  | invalidCharacter (c : Char)
  | missingQuote (mark : Char)
  | unbalancedClose
  | unterminatedGroup
  | bareName (name : String)
  | strayQuantifier (text : String)
  | nothingToCapture
  | unknownKind (name : String) (known : List String)
  | cannotCapture (text : String)
  | capturesText (field : String)
  | alreadyCompiling
deriving DecidableEq, Repr

def RuleProblem.message : RuleProblem → String
  | .invalidCharacter c => "Invalid character " ++ quote (String.ofList [c])
  | .missingQuote mark => "Missing closing quote " ++ String.ofList [mark]
  | .unbalancedClose => "Unbalanced ')'"
  | .unterminatedGroup => "Unterminated group"
  | .bareName name => "Bare name " ++ quote name ++ " (perhaps you meant '@" ++ name ++ "')"
  | .strayQuantifier text => "Quantifier " ++ quote text ++ " must follow a parenthesized group"
  | .nothingToCapture => "Invalid capture syntax: nothing follows '@'"
  | .unknownKind name known =>
      "Cannot capture unknown token kind " ++ quote name ++ " (known kinds are " ++
        ", ".intercalate known ++ ")"
  | .cannotCapture text => "Invalid capture syntax: " ++ quote text ++ " cannot follow '@'"
  | .capturesText field =>
      "Field " ++ quote field ++ " holds nested shapes, so it cannot capture token text"
  | .alreadyCompiling => "Grammar is already being compiled"

/-- A mistake with the rule and the field that it is in, and the offset of the character that it
is about. -/
structure RuleError where
  problem : RuleProblem
  rule : String
  field : String
  offset : Option Int
deriving DecidableEq, Repr

/-- A message about a rule: what is wrong, where, and a picture if the offset is known. -/
def ruleMessage (what rule field : String) (offset : Option Int) : String :=
  let headline := what ++ " (field " ++ quote field ++ ", rule " ++ quote rule ++ ")"
  match offset with
  | none => headline
  | some offset =>
      headline ++ "\n" ++
        Source.picture rule.toList offset 1 "    ".toList s!"offset {offset}"

/-- What is said about a mistake, with its place. -/
def RuleError.message (error : RuleError) : String :=
  ruleMessage error.problem.message error.rule error.field error.offset

end RecordGrammar
