namespace RecordGrammar

/-! Outlines: trees of labels, drawn with one line for each node.

A node stands on its own line after its parent and its earlier siblings with all that is below
them. The lines that lead to it show how deep it is and whether it is a last child.
-/

/-- A tree of labels. -/
inductive Outline where
  | node (label : String) (children : List Outline)
deriving Inhabited, Repr

namespace Outline

def branchMark (isLast : Bool) : String :=
  if isLast then "└── " else "├── "

/-- What stands, on the lines below a child, where the child's own mark stood. -/
def branchStem (isLast : Bool) : String :=
  if isLast then "    " else "│   "

mutual
/-- The lines of a child and of everything below it. -/
def childLines (indent : String) (isLast : Bool) : Outline → List String
  | .node label children =>
      (indent ++ branchMark isLast ++ label) ::
        childrenLines (indent ++ branchStem isLast) children

/-- The lines of all the children of a node. -/
def childrenLines (indent : String) : List Outline → List String
  | [] => []
  | child :: rest => childLines indent rest.isEmpty child ++ childrenLines indent rest
end

/-- The lines of a whole outline: the root's label is not indented. -/
def lines : Outline → List String
  | .node label children => label :: childrenLines "" children

def render (outline : Outline) : String :=
  "\n".intercalate outline.lines

end Outline

end RecordGrammar
