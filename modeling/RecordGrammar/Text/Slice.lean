namespace RecordGrammar.Text

/-! Offsets that may count from the end.

A negative offset counts back from the end of a sequence. A slice clips what lies outside, so it
always exists; a single item beyond either end does not.
-/

variable {α : Type u}

/-- Lengths and offsets are smaller than this. -/
def lengthLimit : Nat := Nat.pow 2 63

/-- Nothing in memory is as long as this. -/
def memoryLimit : Nat := Nat.pow 2 40

/-- The place of an offset in a sequence of the given length, clipped to the sequence. -/
def clipOffset (length : Nat) (offset : Int) : Nat :=
  if 0 ≤ offset then min offset.toNat length else (length + offset).toNat

/-- The items from one offset up to, and without, another. -/
def slice (items : List α) (start stop : Int) : List α :=
  let first := clipOffset items.length start
  (items.drop first).take (clipOffset items.length stop - first)

/-- The item at an offset, if there is one. -/
def itemAt? (items : List α) (offset : Int) : Option α :=
  if 0 ≤ offset then items[offset.toNat]?
  else if 0 ≤ items.length + offset then items[(items.length + offset).toNat]?
  else none

theorem clipOffset_natCast (length offset : Nat) :
    clipOffset length offset = min offset length := by
  simp [clipOffset]

/-- Between offsets that count from the front, a slice is a take after a drop. -/
theorem slice_natCast (items : List α) (start stop : Nat) :
    slice items start stop = (items.drop start).take (stop - start) := by
  simp only [slice, clipOffset_natCast]
  rcases Nat.le_total start items.length with inside | outside
  · rw [Nat.min_eq_left inside]
    rcases Nat.le_total stop items.length with stopInside | stopOutside
    · rw [Nat.min_eq_left stopInside]
    · rw [Nat.min_eq_right stopOutside, List.take_of_length_le (by simp),
        List.take_of_length_le (by simp; omega)]
  · rw [Nat.min_eq_right outside, List.drop_length, List.drop_eq_nil_of_le outside]
    simp

/-- All but the first item and the last one. -/
theorem slice_inner (first last : α) (items : List α) :
    slice (first :: (items ++ [last])) 1 (-1) = items := by
  have length : (first :: (items ++ [last])).length = items.length + 2 := by simp
  have start : clipOffset (items.length + 2) 1 = 1 := by
    rw [clipOffset, if_pos (by decide)]
    omega
  have stop : clipOffset (items.length + 2) (-1) = items.length + 1 := by
    rw [clipOffset, if_neg (by decide)]
    omega
  simp only [slice, length, start, stop, List.drop_succ_cons, List.drop_zero, Nat.add_sub_cancel,
    List.take_left]

theorem itemAt?_natCast (items : List α) (offset : Nat) :
    itemAt? items offset = items[offset]? := by
  simp [itemAt?]

theorem forall_head?_append {holds : α → Prop} {items rest : List α}
    (front : ∀ item ∈ items.head?, holds item) (back : ∀ item ∈ rest.head?, holds item) :
    ∀ item ∈ (items ++ rest).head?, holds item := by
  cases items with
  | nil => exact back
  | cons item items => exact front

/-- A run of items ends where another item comes. -/
theorem takeWhile_append_of_all {holds : α → Bool} {items rest : List α}
    (each : ∀ item ∈ items, holds item = true) (ended : ∀ item ∈ rest.head?, holds item = false) :
    (items ++ rest).takeWhile holds = items := by
  rw [List.takeWhile_append_of_pos each]
  cases rest with
  | nil => simp
  | cons item rest => simp [ended item rfl]

theorem dropWhile_append_of_all {holds : α → Bool} {items rest : List α}
    (each : ∀ item ∈ items, holds item = true) (ended : ∀ item ∈ rest.head?, holds item = false) :
    (items ++ rest).dropWhile holds = rest := by
  rw [List.dropWhile_append_of_pos each]
  cases rest with
  | nil => rfl
  | cons item rest => simp [ended item rfl]

/-- The index of the first occurrence of `wanted`, counted from the front of `text`. -/
def findIn? (wanted : List Char) : List Char → Option Nat
  | [] => if wanted.isEmpty then some 0 else none
  | text@(_ :: rest) =>
      if wanted.isPrefixOf text then some 0 else (findIn? wanted rest).map (· + 1)

/-- The index of the first occurrence of `wanted` that starts at an offset or after it. -/
def findFrom? (wanted text : List Char) (offset : Int) : Option Nat :=
  let start := clipOffset text.length offset
  if text.length < offset then none
  else (findIn? wanted (text.drop start)).map (· + start)

/-- What is looked for is found where it stands if it stands nowhere before. -/
theorem findIn?_append {wanted before after : List Char} (wide : wanted ≠ [])
    (first : ∀ start < before.length, ¬ wanted <+: (before ++ (wanted ++ after)).drop start) :
    findIn? wanted (before ++ (wanted ++ after)) = some before.length := by
  induction before with
  | nil =>
      obtain ⟨c, rest, rfl⟩ := List.exists_cons_of_ne_nil wide
      simp [findIn?]
  | cons c before ih =>
      have apart : wanted.isPrefixOf (c :: (before ++ (wanted ++ after))) = false := by
        rw [Bool.eq_false_iff, ne_eq, List.isPrefixOf_iff_prefix]
        exact first 0 (by simp)
      have later := ih fun start inside => first (start + 1) (by simpa using inside)
      simp [findIn?, apart, later]

/-- What is looked for stands where it is found. -/
theorem prefix_of_findIn? {wanted text : List Char} {place : Nat}
    (found : findIn? wanted text = some place) :
    wanted <+: text.drop place := by
  induction text generalizing place with
  | nil =>
      simp only [findIn?] at found
      split at found
      · rename_i empty
        rw [List.isEmpty_iff.mp empty]
        exact List.nil_prefix
      · cases found
  | cons c rest ih =>
      simp only [findIn?] at found
      split at found
      · rename_i front
        cases found
        exact List.isPrefixOf_iff_prefix.mp front
      · obtain ⟨later, further, same⟩ := Option.map_eq_some_iff.mp found
        subst same
        exact ih further

theorem findIn?_eq_none_iff {wanted text : List Char} :
    findIn? wanted text = none ↔ ¬ wanted <:+: text := by
  induction text with
  | nil => simp [findIn?]
  | cons c rest ih =>
      rw [List.infix_cons_iff, not_or, ← ih, ← List.isPrefixOf_iff_prefix]
      by_cases front : wanted.isPrefixOf (c :: rest) = true
      · simp [findIn?, front]
      · simp [findIn?, front]

/-- From an offset within the text on, looking goes from the front of what follows. -/
theorem findFrom?_natCast {wanted text : List Char} {offset : Nat} (inside : offset ≤ text.length) :
    findFrom? wanted text offset = (findIn? wanted (text.drop offset)).map (· + offset) := by
  have near : ¬ (text.length : Int) < offset := by omega
  simp only [findFrom?, clipOffset_natCast, Nat.min_eq_left inside, near, if_false]

end RecordGrammar.Text
