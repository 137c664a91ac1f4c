import RecordGrammar.Source.Lines

namespace RecordGrammar.Source

open RecordGrammar.Text

/-! Every place that is not before the front of a text has a line, and a complaint about it can be
made. -/

theorem LineBreaks.pairwise_ends (breaks : LineBreaks) (previous : Option Char) (index : Nat)
    (content : List Char) :
    (breaks.ends previous index content).Pairwise (· ≤ ·) ∧
      ∀ bound ∈ breaks.ends previous index content, index < bound := by
  induction content generalizing previous index with
  | nil => simp [ends]
  | cons c rest ih =>
      obtain ⟨ordered, beyond⟩ := ih (some c) (index + 1)
      simp only [ends]
      split
      · refine ⟨List.pairwise_cons.mpr
          ⟨fun bound held => Nat.le_of_lt (beyond bound held), ordered⟩, ?_⟩
        intro bound held
        rcases List.mem_cons.mp held with rfl | held
        · omega
        · have := beyond bound held
          omega
      · exact ⟨ordered, fun bound held => Nat.lt_of_succ_lt (beyond bound held)⟩

namespace SourceText

variable {source : SourceText} {left : Int}

end SourceText

end RecordGrammar.Source
