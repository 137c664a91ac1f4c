namespace RecordGrammar

/-! Rows that have grown by one item at the end, as tables and histories do. -/

theorem getElem?_append_one {α : Type} (items : List α) (item : α) (index : Nat) :
    (items ++ [item])[index]? = if index = items.length then some item else items[index]? := by
  rw [List.getElem?_append]
  split
  · rename_i known
    rw [if_neg (Nat.ne_of_lt known)]
  · split
    · rename_i here
      simp [here]
    · have beyond : [item].length ≤ index - items.length := by
        rw [List.length_singleton]
        omega
      rw [List.getElem?_eq_none beyond, List.getElem?_eq_none (by omega)]

/-- A name that is new goes behind the names so far, and a name that is not leaves them as they
are. -/
theorem eraseDups_append_one {κ : Type} [BEq κ] [EquivBEq κ] (names : List κ) (name : κ) :
    (names ++ [name]).eraseDups =
      if names.any (· == name) then names.eraseDups else names.eraseDups ++ [name] := by
  match names with
  | [] => rw [List.nil_append, List.eraseDups_cons, List.filter_nil, List.eraseDups_nil]; rfl
  | first :: rest =>
      rw [List.cons_append, List.eraseDups_cons, List.eraseDups_cons, List.filter_append,
        List.any_cons]
      cases same : name == first with
      | true => simp [same, BEq.symm same]
      | false =>
          have apart : (first == name) = false := by rw [BEq.comm, same]
          -- What equals the new name differs from the first one, so it survives the first one's
          -- removal.
          have kept : (rest.filter fun other => !other == first).any (· == name) =
              rest.any (· == name) := by
            rw [List.any_filter]
            congr 1
            funext other
            cases alike : other == name with
            | true => simp [BEq.congr_left alike, same]
            | false => simp
          have shorter : (rest.filter fun other => !other == first).length ≤ rest.length :=
            List.length_filter_le _ rest
          simp only [List.filter_cons, same, Bool.not_false, if_true, List.filter_nil, apart,
            Bool.false_or]
          rw [eraseDups_append_one, kept]
          split <;> rfl
termination_by names.length

end RecordGrammar
