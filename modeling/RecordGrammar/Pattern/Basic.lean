import RecordGrammar.Text.Spot

namespace RecordGrammar

open RecordGrammar.Text

/-! Patterns: what a lexeme looks like, and where a match of it ends.

Matching is by ordered trial. Of two alternatives the first one that lets everything after it
succeed is taken; a repetition tries as many turns as it can, or as few, and gives turns back, or
takes more, when what follows does not match. The text before the place of a match is seen only
through its last character.
-/

/-- A set of characters. -/
inductive CharSet where
  | character (c : Char)
  | range (first last : Char)
  | digit
  | word
  | blank
  | none
  | union (left right : CharSet)
  | complement (inner : CharSet)
deriving DecidableEq, Repr

def CharSet.holds : CharSet → Char → Bool
  | .character wanted, c => c == wanted
  | .range first last, c => first ≤ c && c ≤ last
  | .digit, c => isDecimalDigit c
  | .word, c => isWordCharacter c
  | .blank, c => isBlank c
  | .none, _ => false
  | .union left right, c => left.holds c || right.holds c
  | .complement inner, c => !inner.holds c

def CharSet.ofList : List Char → CharSet
  | [] => .none
  | [c] => .character c
  | c :: rest => .union (.character c) (CharSet.ofList rest)

/-- Every character but the line feed. -/
def CharSet.inLine : CharSet := .complement (.character '\n')

/-- A pattern. The turns of a repetition are at least `least` and, if there is a bound, at most
`most`; an `eager` repetition prefers more turns to fewer. -/
inductive Pattern where
  | nothing
  | one (set : CharSet)
  | both (first second : Pattern)
  | either (first second : Pattern)
  | repeated (inner : Pattern) (least : Nat) (most : Option Nat) (eager : Bool)
  | textStart
  | textEnd
  | wordEdge (wanted : Bool)
  | ahead (inner : Pattern) (wanted : Bool)
deriving DecidableEq, Repr

namespace Pattern

/-- What is to be matched from a place on: the place where the match ends, if there is a match. -/
abbrev Goal := Spot → Option Spot

/-- So many turns of a step and then a goal. -/
def turns (step : Goal → Goal) (goal : Goal) : Nat → Goal
  | 0 => goal
  | count + 1 => step (turns step goal count)

/-- Up to so many more turns of a step, and then a goal. A turn that takes nothing is the last
one. -/
def moreTurns (step : Goal → Goal) (eager : Bool) (goal : Goal) : Nat → Goal
  | 0 => goal
  | count + 1 => fun spot =>
      let further := fun _ : Unit =>
        step (fun next =>
          if next.remaining < spot.remaining then moreTurns step eager goal count next
          else goal next) spot
      if eager then (further ()).orElse fun _ => goal spot
      else (goal spot).orElse further

/-- Matches a pattern and then a goal. A repetition without a bound cannot take more turns than
there are characters, but for one last turn that takes nothing. -/
def run : Pattern → Goal → Goal
  | .nothing, goal, spot => goal spot
  | .one set, goal, spot =>
      match spot.next? with
      | none => none
      | some (c, next) => if set.holds c then goal next else none
  | .both first second, goal, spot => first.run (second.run goal) spot
  | .either first second, goal, spot => (first.run goal spot).orElse fun _ => second.run goal spot
  | .repeated inner least most eager, goal, spot =>
      turns inner.run (fun next =>
        moreTurns inner.run eager goal
          (match most with
            | some most => most - least
            | none => next.remaining + 1) next) least spot
  | .textStart, goal, spot => if spot.last.isNone then goal spot else none
  | .textEnd, goal, spot => if spot.atTextEnd then goal spot else none
  | .wordEdge wanted, goal, spot => if spot.atWordEdge == wanted then goal spot else none
  | .ahead inner wanted, goal, spot =>
      if (inner.run some spot).isSome == wanted then goal spot else none

/-- How many characters the match of a pattern takes at a place, if it matches there. -/
def matchWidth? (pattern : Pattern) (spot : Spot) : Option Nat :=
  (pattern.run some spot).map fun stop => spot.remaining - stop.remaining

def ofText : List Char → Pattern
  | [] => .nothing
  | [c] => .one (.character c)
  | c :: rest => .both (.one (.character c)) (ofText rest)

/-- Any number of turns, as many as possible. -/
def star (inner : Pattern) : Pattern := .repeated inner 0 none true

/-- One turn or more, as many as possible. -/
def plus (inner : Pattern) : Pattern := .repeated inner 1 none true

/-- A turn if possible. -/
def optional (inner : Pattern) : Pattern := .repeated inner 0 (some 1) true

end Pattern

end RecordGrammar
