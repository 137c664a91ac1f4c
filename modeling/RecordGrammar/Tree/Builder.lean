import RecordGrammar.Rule.Token
import RecordGrammar.Tree.Basic

namespace RecordGrammar

/-! Building the match tree of a shape from the tokens of its rules.

The tokens of all the fields form one stream, so a group may open in one rule and close in another
and a rule that begins with a bar adds an alternative to what came before it. Tokens are taken one
after the other. What is being built stands on a stack: the sequence at hand, the alternatives
already finished beside it, and below that whatever the open groups interrupted.
-/

/-- How often the group before a token may be matched, if the token says so. -/
def RuleToken.bound? (token : RuleToken) : Option Bound :=
  if token.kind = .operator then Bound.ofMark? token.text else none

/-- What the rules of a shape may refer to: the names to capture tokens by, and the shape itself,
which a reference in a field without an element means. -/
structure RuleContext where
  kinds : KindTable
  owner : ShapeRef

/-- What is being built between two parentheses, or outside of all. `branches` are the finished
alternatives and `members` the parts of the sequence at hand, both with the latest one first. -/
structure Level where
  branches : List Tree := []
  members : List Tree := []
deriving Repr

namespace Level

def push (level : Level) (tree : Tree) : Level :=
  { level with members := tree :: level.members }

def branch (level : Level) : Level where
  branches := .sequence level.members.reverse :: level.branches
  members := []

/-- The tree of all that was built: a sequence, or an alternation if there was a bar. -/
def finish (level : Level) : Tree :=
  match level.branches with
  | [] => .sequence level.members.reverse
  | branches => .alternation (.sequence level.members.reverse :: branches).reverse

end Level

/-- An open group: the parenthesis that opened it, whether literals in it are captured, and the
level that it interrupted. -/
structure OpenGroup where
  opener : RuleToken
  capturing : Bool
  outer : Level
deriving Repr

namespace Tree

/-- Whether literals are captured inside the innermost of some open groups. -/
def capturingIn : List OpenGroup → Bool
  | [] => false
  | group :: _ => group.capturing

/-- Text cannot be captured into a field that holds records. -/
def checkText (token : RuleToken) : Except RuleError Unit :=
  if token.field.kind = .nested then .error (token.complain (.capturesText token.field.name))
  else .ok ()

def literalLeaf (token : RuleToken) (capturing : Bool) : Except RuleError Tree :=
  if capturing then do
    checkText token
    return .leaf (.captureLiteral token.text token.field)
  else .ok (.leaf (.literal token.text token.field))

def kindLeaf (context : RuleContext) (token : RuleToken) : Except RuleError Tree :=
  match context.kinds.kindOf? token.text with
  | none =>
      .error (token.complain (.unknownKind token.text (context.kinds.sorted.map (·.1))))
  | some kind => do
      checkText token
      return .leaf (.captureKind kind token.text token.field)

/-- The reference that two capture marks stand for. -/
def referenceTo (context : RuleContext) (token : RuleToken) : Tree :=
  .reference (token.field.element.getD context.owner) token.field

/-- Takes the tokens one by one. `groups` are the open groups, the innermost first, and `level` is
what has been built inside of them. -/
def buildFrom (context : RuleContext) :
    List OpenGroup → Level → List RuleToken → Except RuleError Tree
  | groups, level, [] =>
      match groups with
      | [] => .ok level.finish
      | group :: _ => .error (group.opener.complain .unterminatedGroup)
  | groups, level, token :: rest =>
      match token.kind with
      | .literal => do
          let leaf ← literalLeaf token (capturingIn groups)
          buildFrom context groups (level.push leaf) rest
      | .branch => buildFrom context groups level.branch rest
      | .identifier => .error (token.complain (.bareName token.text))
      | .operator =>
          if token.text == "(" then
            buildFrom context
              ({ opener := token, capturing := capturingIn groups, outer := level } :: groups)
              {} rest
          else if token.text == ")" then
            match groups with
            | [] => .error (token.complain .unbalancedClose)
            | group :: outer =>
                let close (bound : Bound) : Level :=
                  group.outer.push (.repetition level.finish bound)
                -- A quantifier belongs to the group before it, even across the end of a rule.
                match rest with
                | [] => buildFrom context outer (close .once) []
                | next :: after =>
                    match next.bound? with
                    | some bound => buildFrom context outer (close bound) after
                    -- Without a quantifier of its own the group is matched once.
                    | none => buildFrom context outer (close .once) (next :: after)
          else if token.text == "@" then
            match rest with
            | [] => .error (token.complain .nothingToCapture)
            | next :: after =>
                -- A capture, in contrast, has to be completed in the rule where it begins.
                if next.ordinal ≠ token.ordinal then .error (token.complain .nothingToCapture)
                else
                  match next.kind with
                  | .identifier => do
                      let leaf ← kindLeaf context next
                      buildFrom context groups (level.push leaf) after
                  | .literal => do
                      let leaf ← literalLeaf next true
                      buildFrom context groups (level.push leaf) after
                  | .operator =>
                      if next.text == "(" then
                        buildFrom context ({ opener := next, capturing := true, outer := level } ::
                          groups) {} after
                      else if next.text == "@" then
                        buildFrom context groups (level.push (referenceTo context next)) after
                      else .error (next.complain (.cannotCapture next.text))
                  | .branch => .error (next.complain (.cannotCapture next.text))
          else .error (token.complain (.strayQuantifier token.text))

/-- The tree for the tokens of a shape's rules, simplified. -/
def build (context : RuleContext) (tokens : List RuleToken) : Except RuleError Tree :=
  match tokens with
  | [] => .ok .empty
  | tokens => (buildFrom context [] {} tokens).map simplify

end Tree

end RecordGrammar
