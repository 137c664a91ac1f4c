namespace RecordGrammar.Text

/-! Wordings: what tokens and values stand for.

Texts that are read consist of characters. A token can stand for more than that, because an escape
may spell one half of a pair by its number. Such a half is a code point and counts as one, but it
is no character, and two halves side by side stay two.
-/

/-- A code point: a character, or a half of a pair, which has a number only. -/
inductive CodePoint where
  | char (c : Char)
  | half (code : Nat)
deriving DecidableEq, Repr, Inhabited

/-- Whether a number is that of a half of a pair. -/
def isHalf (code : Nat) : Bool := decide (0xD800 ≤ code) && decide (code < 0xE000)

def CodePoint.ofNat (code : Nat) : CodePoint :=
  if isHalf code then .half code else .char (Char.ofNat code)

/-- A text that may hold halves of pairs. -/
abbrev Wording := List CodePoint

namespace Wording

def ofChars (text : List Char) : Wording := text.map .char

def ofString (text : String) : Wording := ofChars text.toList

/-- The characters of a wording, if that is all it holds. -/
def chars? : Wording → Option (List Char)
  | [] => some []
  | .char c :: rest => (chars? rest).map (c :: ·)
  | .half _ :: _ => none

theorem chars?_ofChars (text : List Char) : chars? (ofChars text) = some text := by
  induction text with
  | nil => rfl
  | cons c rest ih =>
      have step : chars? (ofChars (c :: rest)) = (chars? (ofChars rest)).map (c :: ·) := rfl
      rw [step, ih]
      rfl

theorem ofChars_inj {left right : List Char} : ofChars left = ofChars right ↔ left = right := by
  constructor
  · intro same
    have read := congrArg chars? same
    simpa only [chars?_ofChars, Option.some.injEq] using read
  · intro same
    rw [same]

end Wording

end RecordGrammar.Text
