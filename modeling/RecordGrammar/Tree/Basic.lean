import RecordGrammar.Outline
import RecordGrammar.Rule.Field

namespace RecordGrammar

open RecordGrammar.Text

/-! Match trees: the rules of a shape in the form in which they are matched.

Leaves take one token each; references stand for the whole tree of another shape. A tree is
*simplified* by replacing sequences and alternations of one member, and groups that are matched
exactly once, by what they hold.
-/

/-- How often a group may be matched. -/
inductive Bound where
  | once
  | onceOrMore
  | optional
  | optionalOrMore
deriving DecidableEq, Repr

namespace Bound

def least : Bound → Nat
  | .once => 1
  | .onceOrMore => 1
  | .optional => 0
  | .optionalOrMore => 0

def most : Bound → Option Nat
  | .once => some 1
  | .onceOrMore => none
  | .optional => some 1
  | .optionalOrMore => none

def allows (bound : Bound) (taken : Nat) : Bool :=
  bound.most.all fun most => decide (taken < most)

def word : Bound → String
  | .once => "ONCE"
  | .onceOrMore => "ONCE_OR_MORE"
  | .optional => "OPTIONAL"
  | .optionalOrMore => "OPTIONAL_OR_MORE"

def ofMark? (mark : String) : Option Bound :=
  if mark == "+" then some .onceOrMore
  else if mark == "?" then some .optional
  else if mark == "*" then some .optionalOrMore
  else none

end Bound

/-- A leaf takes one token. A literal takes a token with the given text and leaves no more than a
flag; the two captures bind the text of the token that they take. -/
inductive Leaf where
  | literal (text : String) (field : Field)
  | captureLiteral (text : String) (field : Field)
  | captureKind (kind : Option TokenKind) (name : String) (field : Field)
deriving DecidableEq, Repr

namespace Leaf

def field : Leaf → Field
  | .literal _ field => field
  | .captureLiteral _ field => field
  | .captureKind _ _ field => field

/-- Whether a leaf takes a token, leaving aside what becomes of its text. -/
def accepts : Leaf → Token → Bool
  | .literal text _, token => token.text == .ofString text
  | .captureLiteral text _, token => token.text == .ofString text
  | .captureKind kind _ _, token => token.kind == kind

/-- What a leaf wants, in messages. -/
def expectation : Leaf → String
  | .literal text _ => quote text
  | .captureLiteral text _ => quote text
  | .captureKind _ name _ => name

def label : Leaf → String
  | .literal text _ => "Literal " ++ quote text
  | .captureLiteral text field => "Capture " ++ quote text ++ " -> " ++ field.name
  | .captureKind _ name field => "Capture @" ++ name ++ " -> " ++ field.name

def display : Leaf → String
  | .literal text field => "LiteralMatch(" ++ quote text ++ ", " ++ quote field.name ++ ")"
  | .captureLiteral text field =>
      "CaptureLiteral(" ++ quote text ++ ", " ++ quote field.name ++ ")"
  | .captureKind _ name field => "CaptureByType(" ++ name ++ ", " ++ quote field.name ++ ")"

end Leaf

/-- A match tree. -/
inductive Tree where
  | empty
  | sequence (members : List Tree)
  | alternation (branches : List Tree)
  | repetition (inner : Tree) (bound : Bound)
  | leaf (leaf : Leaf)
  | reference (target : ShapeRef) (field : Field)
deriving Repr, Inhabited

namespace Tree

mutual
/-- Collapses what holds only one thing: sequences of one member, alternations of one branch and
groups that are matched exactly once. A sequence of nothing is empty. -/
def simplify : Tree → Tree
  | .empty => .empty
  | .sequence [] => .empty
  | .sequence [member] => member.simplify
  | .sequence (first :: second :: rest) =>
      .sequence (first.simplify :: second.simplify :: simplifyAll rest)
  | .alternation [] => .alternation []
  | .alternation [branch] => branch.simplify
  | .alternation (first :: second :: rest) =>
      .alternation (first.simplify :: second.simplify :: simplifyAll rest)
  | .repetition inner .once => inner.simplify
  | .repetition inner .onceOrMore => .repetition inner.simplify .onceOrMore
  | .repetition inner .optional => .repetition inner.simplify .optional
  | .repetition inner .optionalOrMore => .repetition inner.simplify .optionalOrMore
  | .leaf taker => .leaf taker
  | .reference target field => .reference target field

def simplifyAll : List Tree → List Tree
  | [] => []
  | tree :: rest => tree.simplify :: simplifyAll rest
end

mutual
def size : Tree → Nat
  | .empty => 1
  | .sequence members => 1 + sizeAll members
  | .alternation branches => 1 + sizeAll branches
  | .repetition inner _ => 1 + inner.size
  | .leaf _ => 1
  | .reference _ _ => 1

def sizeAll : List Tree → Nat
  | [] => 0
  | tree :: rest => tree.size + sizeAll rest
end

mutual
def referenceCount : Tree → Nat
  | .empty => 0
  | .sequence members => referenceCountAll members
  | .alternation branches => referenceCountAll branches
  | .repetition inner _ => inner.referenceCount
  | .leaf _ => 0
  | .reference _ _ => 1

def referenceCountAll : List Tree → Nat
  | [] => 0
  | tree :: rest => tree.referenceCount + referenceCountAll rest
end

mutual
def outline : Tree → Outline
  | .empty => .node "Empty" []
  | .sequence members => .node "Sequence" (outlineAll members)
  | .alternation branches => .node "Alternation" (outlineAll branches)
  | .repetition inner bound => .node ("Repetition " ++ bound.word) [inner.outline]
  | .leaf taker => .node taker.label []
  | .reference target field =>
      .node ("Reference @@" ++ target.name ++ " -> " ++ field.name ++
        (if field.many then "[]" else "")) []

def outlineAll : List Tree → List Outline
  | [] => []
  | tree :: rest => tree.outline :: outlineAll rest
end

mutual
def display : Tree → String
  | .empty => "Empty()"
  | .sequence members => "Sequence([" ++ ", ".intercalate (displayAll members) ++ "])"
  | .alternation branches => "Alternation([" ++ ", ".intercalate (displayAll branches) ++ "])"
  | .repetition inner bound => "Repetition(" ++ inner.display ++ ", Bound." ++ bound.word ++ ")"
  | .leaf taker => taker.display
  | .reference target field =>
      "Reference(" ++ target.display ++ ", " ++ quote field.name ++ ")"

def displayAll : List Tree → List String
  | [] => []
  | tree :: rest => tree.display :: displayAll rest
end

end Tree

end RecordGrammar
