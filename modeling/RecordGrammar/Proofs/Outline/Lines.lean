import Mathlib.Data.List.Forall2
import RecordGrammar.Outline
import RecordGrammar.Text.Slice

namespace RecordGrammar.Outline

open RecordGrammar.Text

/-! The lines of an outline tell the outline.

On every line below the root a mark comes before the label, and in front of the mark there are only
stems. So whatever a label begins with, the first mark on its line tells where the label begins, how
deep the node is, and whether it is a last child. -/

/-- A node as it is visited: its label, and how many steps it is down from the root. -/
structure Entry where
  depth : Nat
  label : String
deriving DecidableEq, Repr

mutual
/-- The nodes of an outline that stands at a depth, in pre-order: a node is visited before its
children, and a child with all that is below it before the next child. -/
def entries (depth : Nat) : Outline → List Entry
  | .node label children => ⟨depth, label⟩ :: entriesAll (depth + 1) children

def entriesAll (depth : Nat) : List Outline → List Entry
  | [] => []
  | child :: rest => child.entries depth ++ entriesAll depth rest
end

/-- No label goes over the end of a line. -/
def OneLined (outline : Outline) : Prop := ∀ entry ∈ outline.entries 0, '\n' ∉ entry.label.toList

instance (outline : Outline) : Decidable outline.OneLined :=
  inferInstanceAs (Decidable (∀ entry ∈ outline.entries 0, _))

/-- The line of a node is its label, behind four columns for each step down from the root. -/
def Entry.StandsOn (entry : Entry) (line : List Char) : Prop :=
  ∃ lead : List Char, lead.length = 4 * entry.depth ∧ line = lead ++ entry.label.toList

/-- How the line of a node is drawn below a node at a depth: behind the indent of the lines there
come stems and a mark, and then the label. -/
def Entry.DrawnBehind (indent : String) (depth : Nat) (entry : Entry) (line : String) : Prop :=
  ∃ lead : String, lead.length + 4 * depth = 4 * entry.depth ∧ '\n' ∉ lead.toList ∧
    line = indent ++ lead ++ entry.label

section Marks

variable {isLast otherLast : Bool}

theorem length_branchMark (isLast : Bool) :
    (branchMark isLast).length = 4 := by cases isLast <;> rfl

theorem length_branchStem (isLast : Bool) :
    (branchStem isLast).length = 4 := by cases isLast <;> rfl

theorem branchMark_single (isLast : Bool) :
    '\n' ∉ (branchMark isLast).toList := by cases isLast <;> decide

theorem branchStem_single (isLast : Bool) :
    '\n' ∉ (branchStem isLast).toList := by cases isLast <;> decide

theorem branchMark_append_inj {label other : String}
    (same : branchMark isLast ++ label = branchMark otherLast ++ other) :
    isLast = otherLast ∧ label = other := by
  have chars := congrArg String.toList same
  rw [String.toList_append, String.toList_append] at chars
  have wide : (branchMark isLast).toList.length = (branchMark otherLast).toList.length := by
    rw [String.length_toList, String.length_toList, length_branchMark, length_branchMark]
  obtain ⟨marks, labels⟩ := List.append_inj chars wide
  refine ⟨?_, String.toList_inj.mp labels⟩
  revert marks
  cases isLast <;> cases otherLast <;> decide

theorem not_branchStem_prefix (label : List Char) :
    ¬ (branchStem isLast).toList <+: (branchMark otherLast).toList ++ label := by
  intro front
  have wide : (branchStem isLast).toList.length = (branchMark otherLast).toList.length := by
    rw [String.length_toList, String.length_toList, length_branchStem, length_branchMark]
  have stem := List.prefix_of_prefix_length_le front (List.prefix_append _ _) (Nat.le_of_eq wide)
  revert stem
  cases isLast <;> cases otherLast <;> decide

end Marks

section Rows

variable {indent stem line : String} {depth : Nat} {entry : Entry} {entries : List Entry}
  {rows : List String} {outline other : Outline}

theorem Entry.DrawnBehind.of_append (four : stem.length = 4) (plain : '\n' ∉ stem.toList)
    (drawn : entry.DrawnBehind (indent ++ stem) (depth + 1) line) :
    entry.DrawnBehind indent depth line := by
  obtain ⟨lead, wide, single, whole⟩ := drawn
  refine ⟨stem ++ lead, ?_, ?_, ?_⟩
  · rw [String.length_append, four]
    omega
  · rw [String.toList_append, List.mem_append, not_or]
    exact ⟨plain, single⟩
  · rwa [← String.append_assoc]

mutual
theorem childLines_drawn (indent : String) (depth : Nat) (isLast : Bool) : (child : Outline) →
    List.Forall₂ (Entry.DrawnBehind indent depth) (child.entries (depth + 1))
      (childLines indent isLast child)
  | .node label children => by
      have wide : (branchMark isLast).length + 4 * depth = 4 * (depth + 1) := by
        rw [length_branchMark]
        omega
      have below := childrenLines_drawn (indent ++ branchStem isLast) (depth + 1) children
      exact .cons ⟨branchMark isLast, wide, branchMark_single isLast, rfl⟩
        (below.imp fun entry line drawn =>
          drawn.of_append (length_branchStem isLast) (branchStem_single isLast))

theorem childrenLines_drawn (indent : String) (depth : Nat) : (children : List Outline) →
    List.Forall₂ (Entry.DrawnBehind indent depth) (entriesAll (depth + 1) children)
      (childrenLines indent children)
  | [] => .nil
  | child :: rest =>
      List.rel_append (childLines_drawn indent depth rest.isEmpty child)
        (childrenLines_drawn indent depth rest)
end

theorem lines_drawn (outline : Outline) :
    List.Forall₂ (Entry.DrawnBehind "" 0) (outline.entries 0) outline.lines := by
  obtain ⟨label, children⟩ := outline
  exact .cons ⟨"", rfl, List.not_mem_nil, by rw [String.empty_append, String.empty_append]⟩
    (childrenLines_drawn "" 0 children)

theorem forall_of_drawn {holds : String → Prop}
    (drawn : List.Forall₂ (Entry.DrawnBehind indent depth) entries rows)
    (each : ∀ entry ∈ entries, ∀ line, entry.DrawnBehind indent depth line → holds line) :
    ∀ line ∈ rows, holds line := by
  induction drawn with
  | nil => exact List.forall_mem_nil _
  | cons first rest ih =>
      obtain ⟨here, later⟩ := List.forall_mem_cons.mp each
      exact List.forall_mem_cons.mpr ⟨here _ first, ih later⟩

/-- Whether a line goes on behind an indent. -/
def isBehind (indent line : String) : Bool := indent.toList.isPrefixOf line.toList

theorem childrenLines_behind (indent : String) (children : List Outline) :
    ∀ line ∈ childrenLines indent children, isBehind indent line = true := by
  refine forall_of_drawn (childrenLines_drawn indent 0 children) fun entry _ line drawn => ?_
  obtain ⟨lead, _, _, whole⟩ := drawn
  rw [isBehind, List.isPrefixOf_iff_prefix, whole, String.append_assoc, String.toList_append]
  exact List.prefix_append _ _

/-- Of the lines that come after a child, its own children have those that go on behind its stem. -/
theorem childrenLines_part (indent : String) (isLast : Bool) (children siblings : List Outline) :
    let below := childrenLines (indent ++ branchStem isLast) children
    let behind := childrenLines indent siblings
    (below ++ behind).takeWhile (isBehind (indent ++ branchStem isLast)) = below ∧
      (below ++ behind).dropWhile (isBehind (indent ++ branchStem isLast)) = behind := by
  have each := childrenLines_behind (indent ++ branchStem isLast) children
  have ended : ∀ line ∈ (childrenLines indent siblings).head?,
      isBehind (indent ++ branchStem isLast) line = false := by
    intro line front
    cases siblings with
    | nil => cases front
    | cons sibling siblings =>
        obtain ⟨label, below⟩ := sibling
        cases front
        rw [isBehind, Bool.eq_false_iff, ne_eq, List.isPrefixOf_iff_prefix]
        simp only [String.toList_append, List.append_assoc, List.prefix_append_right_inj]
        exact not_branchStem_prefix _
  exact ⟨takeWhile_append_of_all each ended, dropWhile_append_of_all each ended⟩

/-- The lines of a child and of its siblings tell which of them are the child's. -/
theorem childLines_append_inj {isLast otherLast : Bool} {child other : Outline}
    {rest others : List Outline}
    (same : childLines indent isLast child ++ childrenLines indent rest =
      childLines indent otherLast other ++ childrenLines indent others) :
    isLast = otherLast ∧ childLines indent isLast child = childLines indent otherLast other ∧
      childrenLines indent rest = childrenLines indent others := by
  obtain ⟨label, children⟩ := child
  obtain ⟨otherLabel, lower⟩ := other
  obtain ⟨first, later⟩ := List.cons.inj same
  rw [List.append_eq, List.append_eq] at later
  have marked := first
  rw [String.append_assoc, String.append_assoc, String.append_right_inj] at marked
  obtain ⟨lasts, _⟩ := branchMark_append_inj marked
  subst lasts
  -- The marks agree, so the same stem stands on both sides in front of what is below.
  obtain ⟨below, behind⟩ := childrenLines_part indent isLast children rest
  obtain ⟨belowToo, behindToo⟩ := childrenLines_part indent isLast lower others
  rw [later] at below behind
  rw [childLines, childLines, first]
  exact ⟨rfl, congrArg _ (below.symm.trans belowToo), behind.symm.trans behindToo⟩

mutual
theorem childLines_inj (indent : String) (isLast : Bool) : (child other : Outline) →
    childLines indent isLast child = childLines indent isLast other → child = other
  | .node label children, .node otherLabel others, same => by
      obtain ⟨first, below⟩ := List.cons.inj same
      rw [(String.append_right_inj _).mp first, childrenLines_inj _ children others below]

theorem childrenLines_inj (indent : String) : (children others : List Outline) →
    childrenLines indent children = childrenLines indent others → children = others
  | [], [], _ => rfl
  | [], .node _ _ :: _, same => by cases same
  | .node _ _ :: _, [], same => by cases same
  | child :: rest, other :: others, same => by
      obtain ⟨lasts, lines, behind⟩ := childLines_append_inj same
      rw [← lasts] at lines
      rw [childLines_inj indent _ child other lines, childrenLines_inj indent rest others behind]
end

theorem lines_inj (same : outline.lines = other.lines) : outline = other := by
  obtain ⟨label, children⟩ := outline
  obtain ⟨otherLabel, others⟩ := other
  obtain ⟨labels, below⟩ := List.cons.inj same
  rw [labels, childrenLines_inj "" children others below]

end Rows

section Rendering

variable {outline : Outline}

theorem lines_single (oneLined : outline.OneLined) :
    ∀ line ∈ outline.lines, '\n' ∉ line.toList := by
  refine forall_of_drawn (lines_drawn outline) fun entry member line drawn => ?_
  obtain ⟨lead, _, single, whole⟩ := drawn
  rw [whole, String.empty_append, String.toList_append, List.mem_append, not_or]
  exact ⟨single, oneLined entry member⟩

theorem splitOn_render (oneLined : outline.OneLined) :
    outline.render.toList.splitOn '\n' = outline.lines.map String.toList := by
  rw [render, String.toList_intercalate]
  refine List.splitOn_intercalate '\n' (List.forall_mem_map.mpr (lines_single oneLined)) ?_
  obtain ⟨label, children⟩ := outline
  exact List.cons_ne_nil _ _

/-- If no label goes over the end of a line, the text of an outline is that of no other. It has one
line for each node, in pre-order: the label of the node, as far to the right as the node is deep. -/
theorem render_tells (outline : Outline) (oneLined : outline.OneLined) :
    (∀ other : Outline, other.OneLined → outline.render = other.render → outline = other) ∧
      List.Forall₂ Entry.StandsOn (outline.entries 0) (outline.render.toList.splitOn '\n') := by
  have drawn := splitOn_render oneLined
  constructor
  · intro other oneLinedToo same
    have drawnToo := splitOn_render oneLinedToo
    rw [← same, drawn] at drawnToo
    exact lines_inj (List.map_injective_iff.mpr (fun _ _ => String.toList_injective) drawnToo)
  · rw [drawn, List.forall₂_map_right_iff]
    refine (lines_drawn outline).imp fun entry line behind => ?_
    obtain ⟨lead, wide, _, whole⟩ := behind
    refine ⟨lead.toList, ?_, ?_⟩
    · rw [String.length_toList]
      exact wide
    · rw [whole, String.empty_append, String.toList_append]

/-- A label that looks like the line of a node further down is not taken for one. -/
theorem framed_render_ne :
    let framed : Outline := .node "Sequence" [.node "├── └── x" [], .node "│   x" []]
    let nested : Outline := .node "Sequence" [.node "├── " [.node "x" []], .node "│   x" []]
    framed.OneLined ∧ nested.OneLined ∧ framed.render ≠ nested.render ∧
      List.Forall₂ Entry.StandsOn (framed.entries 0) (framed.render.toList.splitOn '\n') := by
  intro framed nested
  have oneLined : framed.OneLined := by decide
  have oneLinedToo : nested.OneLined := by decide
  obtain ⟨told, stand⟩ := render_tells framed oneLined
  refine ⟨oneLined, oneLinedToo, fun same => ?_, stand⟩
  simpa [framed, nested] using told nested oneLinedToo same

end Rendering

end RecordGrammar.Outline
