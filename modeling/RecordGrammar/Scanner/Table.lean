import RecordGrammar.Pattern.Basic
import RecordGrammar.Scanner.Reader

namespace RecordGrammar

open RecordGrammar.Text

/-! Scanning by a table of patterns.

Every rule gets a try at every place. The rules of the highest rank come first; among those the
longest match wins, and among equals the rule that was defined earlier. Matches that take nothing
do not count. What a rule without a kind matches is skipped.
-/

/-- A rule of a scanner: what matches the pattern is a token of the kind. The token stands for the
`meaning` of the matched text, or for the text that was passed if it has none. -/
structure ScanRule where
  name : Option String
  pattern : Pattern
  kind : Option TokenKind
  rank : Int
  meaning : List Char → Option Wording := fun text => some (.ofChars text)

namespace ScanRule

def ignore (pattern : Pattern) (rank : Int) : ScanRule where
  name := none
  pattern := pattern
  kind := none
  rank := rank

def token (name : String) (pattern : Pattern) (kind : Option TokenKind) (rank : Int) :
    ScanRule where
  name := some name
  pattern := pattern
  kind := kind
  rank := rank

/-- A match that beats another: by rank, or by width at the same rank. -/
def beats (rule : ScanRule) (width : Nat) (other : ScanRule) (otherWidth : Nat) : Bool :=
  decide (other.rank < rule.rank) || (rule.rank == other.rank && decide (otherWidth < width))

/-- How wide a rule matches at a place, if it matches there, as its pattern tells. -/
def width? (rule : ScanRule) (spot : Spot) : Option Nat := rule.pattern.matchWidth? spot

/-- The winner of a table of rules at a place, and its width. A rule replaces the best one so far
only by beating it, so of equals the first stays. `allowEmpty` lets matches count that take
nothing. Nothing but `widths` tells how the rules match. -/
def best? (allowEmpty : Bool) (spot : Spot) (rules : List ScanRule)
    (found : Option (ScanRule × Nat)) (widths : ScanRule → Spot → Option Nat := width?) :
    Option (ScanRule × Nat) :=
  match rules with
  | [] => found
  | rule :: rest =>
      match widths rule spot with
      | none => best? allowEmpty spot rest found widths
      | some width =>
          if width == 0 && !allowEmpty then best? allowEmpty spot rest found widths
          else
            match found with
            | none => best? allowEmpty spot rest (some (rule, width)) widths
            | some (other, otherWidth) =>
                if rule.beats width other otherWidth then
                  best? allowEmpty spot rest (some (rule, width)) widths
                else best? allowEmpty spot rest found widths

/-- The winner at the place where a reader stands. From a place before the front the patterns are
tried at the front, where no match ends at the reader's place. -/
def bestAt? (rules : List ScanRule) (reader : Reader)
    (widths : ScanRule → Spot → Option Nat := width?) : Option (ScanRule × Nat) :=
  best? (decide (reader.right < 0)) reader.spot rules none widths

/-- The next token that has a kind, or the token at the end of the text. What is skipped takes at
least one character, so the length of the remaining text is fuel enough. -/
def nextWithin (rules : List ScanRule) (fuel : Nat) (reader : Reader)
    (widths : ScanRule → Spot → Option Nat := width?) : Except ScanError Token × Reader :=
  match fuel with
  | 0 => (.error .outOfRange, reader)
  | fuel + 1 =>
      if !reader.hasMore then (.ok reader.finish.1, reader.finish.2)
      else if !rules.isEmpty && decide (reader.right < -(lengthLimit : Int)) then
        (.error .outOfReach, reader)
      else
        match bestAt? rules reader widths with
        | none => (.error (.blocked (reader.blocked "INITIAL")), reader)
        | some (rule, width) =>
            match rule.kind with
            | none => nextWithin rules fuel (reader.skip width) widths
            | some kind =>
                let text := rule.meaning (reader.spot.rest.take width)
                let (token, after) := reader.emit (some kind) width text
                (.ok token, after)

/-- The next token by a table of rules. -/
def next (rules : List ScanRule) (reader : Reader)
    (widths : ScanRule → Spot → Option Nat := width?) : Except ScanError Token × Reader :=
  nextWithin rules (reader.spot.remaining + (-reader.right).toNat + 1) reader widths

end ScanRule

end RecordGrammar
