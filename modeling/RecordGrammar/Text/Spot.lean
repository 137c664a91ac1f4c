import RecordGrammar.Text.Class

namespace RecordGrammar.Text

/-! Spots: places in a text, seen from within. -/

/-- A place in a text: the character before it, if any, and the text after it with its length. -/
structure Spot where
  last : Option Char
  rest : List Char
  remaining : Nat := rest.length
  counted : remaining = rest.length := by rfl
deriving DecidableEq, Repr

namespace Spot

/-- The place at the front of a text, as if nothing stood before it. -/
def front (text : List Char) : Spot where
  last := none
  rest := text

/-- The place after so many characters of a text. -/
def after (text : List Char) (count : Nat) : Spot where
  last := (text.take count).getLast?
  rest := text.drop count

def advance (spot : Spot) (count : Nat) : Spot where
  last := (spot.rest.take count).getLast?.or spot.last
  rest := spot.rest.drop count
  remaining := spot.remaining - count
  counted := by simp [spot.counted]

/-- The next character and the place behind it. -/
def next? (spot : Spot) : Option (Char × Spot) :=
  match found : spot.rest with
  | [] => none
  | c :: rest =>
      some (c, { last := some c, rest, remaining := spot.remaining - 1
                 counted := by simp [spot.counted, found] })

/-- Whether a word begins or ends here. -/
def atWordEdge (spot : Spot) : Bool :=
  spot.last.any isWordCharacter != spot.rest.head?.any isWordCharacter

/-- Whether the text ends here, perhaps after one more line feed. -/
def atTextEnd (spot : Spot) : Bool :=
  spot.rest.isEmpty || spot.rest == ['\n']

/-- Two spots with the same surroundings are the same. -/
theorem eq_of_last_rest {left right : Spot} (last : left.last = right.last)
    (rest : left.rest = right.rest) : left = right := by
  have remaining : left.remaining = right.remaining := by
    rw [left.counted, right.counted, rest]
  cases left
  cases right
  simp_all

@[simp] theorem advance_rest (spot : Spot) (count : Nat) :
    (spot.advance count).rest = spot.rest.drop count := rfl

@[simp] theorem advance_remaining (spot : Spot) (count : Nat) :
    (spot.advance count).remaining = spot.remaining - count := rfl

@[simp] theorem advance_zero (spot : Spot) : spot.advance 0 = spot :=
  eq_of_last_rest (by simp [advance]) (by simp)

@[simp] theorem advance_advance (spot : Spot) (count more : Nat) :
    (spot.advance count).advance more = spot.advance (count + more) := by
  apply eq_of_last_rest
  · simp only [advance, List.take_add]
    rw [List.getLast?_append, Option.or_assoc]
  · simp [List.drop_drop]

/-- Behind the next character is the place one character further on. -/
theorem next?_eq (spot : Spot) :
    spot.next? = spot.rest.head?.map fun c => (c, spot.advance 1) := by
  unfold next?
  split <;> rename_i found
  · simp [found]
  · rename_i c rest
    simp only [found, List.head?_cons, Option.map_some, Option.some.injEq, Prod.mk.injEq, true_and]
    apply eq_of_last_rest <;> simp [advance, found]

/-- Going on from the place after some characters leads to the place after more of them. -/
theorem advance_after (text : List Char) (count more : Nat) :
    (after text count).advance more = after text (count + more) := by
  apply eq_of_last_rest
  · simp only [advance, after, List.take_add]
    rw [List.getLast?_append]
  · simp [advance, after, List.drop_drop]

end Spot

end RecordGrammar.Text
