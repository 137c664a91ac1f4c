import RecordGrammar.Proofs.Decimal.Written
import RecordGrammar.Proofs.Scanner.Tables
import RecordGrammar.Worked.Json

namespace RecordGrammar.Worked.Json

open RecordGrammar.Text
open RecordGrammar.Decimal (Written)

/-! JSON data: the tokens that spell them, the records that hold them, and the values that they
stand for. -/

inductive Datum where
  | word (text : Wording)
  | number (written : Written)
  | list (items : List Datum)
  | truth (held : Bool)
  | null
  | object (members : List (Wording × Datum))

/-- What a token is to be. For a sign a string with the same text may do, if it is `quotable`. -/
inductive Mark where
  | word (text : Wording)
  | number (written : Written)
  | sign (c : Char) (quotable : Bool)
  | name (text : String)

namespace Mark

def face : Mark → Face
  | word text => (some .string, text)
  | number written => (some .number, .ofChars written.text)
  | sign c _ => (some .operator, .ofChars [c])
  | name text => (some .keyword, .ofString text)

def quotable : Mark → Bool
  | sign _ quotable => quotable
  | _ => false

def isSign : Mark → Bool
  | sign _ _ => true
  | _ => false

/-- A token is what it is to be. -/
def Fits (mark : Mark) (token : Token) : Prop :=
  token.face = mark.face ∨ (mark.quotable = true ∧ token.face = (some .string, mark.face.2))

end Mark

/-- The record of a value that has one of its attributes. -/
def valueWith (name : String) (held : Value) : Value :=
  .entity (.record valueId) value.name none
    (Binding.put [("text", .null), ("number", .null), ("items", .list []), ("truth", .null),
      ("null", .bool false), ("object", .null)] name held)

def pairRecord (key : Wording) (value : Value) : Value :=
  .entity (.record pairId) pair.name none [("key", .text key), ("value", value)]

def objectRecord (pairs : List Value) : Value :=
  .entity (.record objectId) object.name none [("pairs", .list pairs)]

/-- The tokens of a group: brackets, and between them items with commas in between. -/
def groupMarks {Item : Type} (left right : Char) (quotable : Bool) (marks : Item → List Mark)
    (items : List Item) :
    List Mark :=
  .sign left quotable ::
    ((items.flatMap fun item => .sign ',' true :: marks item).tail ++ [.sign right true])

namespace Datum

/-- The word for a truth value. -/
def truthName (held : Bool) : String := if held then "true" else "false"

mutual
/-- The tokens of a datum. Only where data are at an end, or go on, a string may do for a sign. -/
def marks : Datum → List Mark
  | .word text => [.word text]
  | .number written => [.number written]
  | .list items => .sign '[' false :: ((itemMarks items).tail ++ [.sign ']' true])
  | .truth held => [.name (truthName held)]
  | .null => [.name "null"]
  | .object members => .sign '\x7b' false :: ((memberMarks members).tail ++ [.sign '\x7d' true])

/-- The tokens of some items, each with a comma in front. -/
def itemMarks : List Datum → List Mark
  | [] => []
  | item :: rest => .sign ',' true :: (item.marks ++ itemMarks rest)

/-- The tokens of some members, each with a comma in front. -/
def memberMarks : List (Wording × Datum) → List Mark
  | [] => []
  | (key, value) :: rest =>
      .sign ',' true :: .word key :: .sign ':' true :: (value.marks ++ memberMarks rest)
end

/-- The tokens of a member. -/
def pairMarks (member : Wording × Datum) : List Mark :=
  .word member.1 :: .sign ':' true :: member.2.marks

/-- The tokens of an object that stands by itself. -/
def wholeMarks (members : List (Wording × Datum)) : List Mark :=
  groupMarks '\x7b' '\x7d' true pairMarks members

mutual
/-- The record of a datum. -/
def record : Datum → Value
  | .word text => valueWith "text" (.text text)
  | .number written => valueWith "number" written.value
  | .list items => valueWith "items" (.list (itemRecords items))
  | .truth held => valueWith "truth" (.text (.ofString (truthName held)))
  | .null => valueWith "null" (.bool true)
  | .object members => valueWith "object" (objectRecord (memberRecords members))

def itemRecords : List Datum → List Value
  | [] => []
  | item :: rest => item.record :: itemRecords rest

def memberRecords : List (Wording × Datum) → List Value
  | [] => []
  | (key, value) :: rest => pairRecord key value.record :: memberRecords rest
end

mutual
/-- The value that a datum stands for, where the entries of an object are merged. -/
def valueBy (merge : List (Wording × Value) → List (Wording × Value)) : Datum → Value
  | .word text => .text text
  | .number written => written.value
  | .list items => .list (itemsBy merge items)
  | .truth held => .bool held
  | .null => .null
  | .object members => .dictionary (merge (entriesBy merge members))

def itemsBy (merge : List (Wording × Value) → List (Wording × Value)) : List Datum → List Value
  | [] => []
  | item :: rest => item.valueBy merge :: itemsBy merge rest

def entriesBy (merge : List (Wording × Value) → List (Wording × Value)) :
    List (Wording × Datum) → List (Wording × Value)
  | [] => []
  | (key, value) :: rest => (key, value.valueBy merge) :: entriesBy merge rest
end

/-- The last value of a key counts. -/
def lastOfEach (entries : List (Wording × Value)) : List (Wording × Value) :=
  entries.foldl (fun known entry => Binding.put known entry.1 entry.2) []

/-- The value that a datum stands for, whether or not keys stand twice in an object. -/
def value : Datum → Value := valueBy lastOfEach

/-- The value that a datum stands for as it is written. -/
def plain : Datum → Value := valueBy id

/-- Induction over data in which all that an item or an object holds is at hand. -/
@[elab_as_elim, induction_eliminator]
theorem byParts {motive : Datum → Prop} (word : ∀ text, motive (.word text))
    (number : ∀ written, motive (.number written))
    (list : ∀ items, (∀ item ∈ items, motive item) → motive (.list items))
    (truth : ∀ held, motive (.truth held)) (null : motive .null)
    (object : ∀ members, (∀ member ∈ members, motive member.2) → motive (.object members))
    (datum : Datum) : motive datum := by
  apply @Datum.rec motive (fun items => ∀ item ∈ items, motive item)
    (fun members => ∀ member ∈ members, motive member.2) (fun member => motive member.2)
  · exact word
  · exact number
  · exact list
  · exact truth
  · exact null
  · exact object
  · simp
  · exact fun first rest here later => List.forall_mem_cons.mpr ⟨here, later⟩
  · simp
  · exact fun first rest here later => List.forall_mem_cons.mpr ⟨here, later⟩
  · exact fun key value here => here

/-- A property of a datum and of every datum in it. -/
inductive Every (holds : Datum → Prop) : Datum → Prop
  | word (here : holds (.word text)) : Every holds (.word text)
  | number (here : holds (.number written)) : Every holds (.number written)
  | list (here : holds (.list items)) (inside : ∀ item ∈ items, Every holds item) :
      Every holds (.list items)
  | truth (here : holds (.truth held)) : Every holds (.truth held)
  | null (here : holds .null) : Every holds .null
  | object (here : holds (.object members)) (inside : ∀ member ∈ members, Every holds member.2) :
      Every holds (.object members)

section Lists

variable (merge : List (Wording × Value) → List (Wording × Value))

theorem itemMarks_eq (items : List Datum) :
    itemMarks items = items.flatMap fun item => .sign ',' true :: item.marks := by
  induction items with
  | nil => rfl
  | cons item rest ih => rw [itemMarks, ih, List.flatMap_cons, List.cons_append]

theorem memberMarks_eq (members : List (Wording × Datum)) :
    memberMarks members = members.flatMap fun member => .sign ',' true :: pairMarks member := by
  induction members with
  | nil => rfl
  | cons member rest ih =>
      obtain ⟨key, value⟩ := member
      rw [memberMarks, ih, List.flatMap_cons, pairMarks, List.cons_append, List.cons_append,
        List.cons_append]

theorem marks_list (items : List Datum) :
    (list items).marks = groupMarks '[' ']' false marks items := by
  rw [marks, itemMarks_eq, groupMarks]

theorem marks_object (members : List (Wording × Datum)) :
    (object members).marks = groupMarks '\x7b' '\x7d' false pairMarks members := by
  rw [marks, memberMarks_eq, groupMarks]

theorem itemRecords_eq (items : List Datum) : itemRecords items = items.map record := by
  induction items with
  | nil => rfl
  | cons item rest ih => rw [itemRecords, ih, List.map_cons]

theorem memberRecords_eq (members : List (Wording × Datum)) :
    memberRecords members = members.map fun member => pairRecord member.1 member.2.record := by
  induction members with
  | nil => rfl
  | cons member rest ih => rw [memberRecords, ih, List.map_cons]

theorem itemsBy_eq (items : List Datum) : itemsBy merge items = items.map (valueBy merge) := by
  induction items with
  | nil => rfl
  | cons item rest ih => rw [itemsBy, ih, List.map_cons]

theorem entriesBy_eq (members : List (Wording × Datum)) :
    entriesBy merge members = members.map fun member => (member.1, member.2.valueBy merge) := by
  induction members with
  | nil => rfl
  | cons member rest ih => rw [entriesBy, ih, List.map_cons]

end Lists

section Values

theorem data_items {items : List Datum} (each : ∀ item ∈ items, data item.record = item.value) :
    dataItems (itemRecords items) = itemsBy lastOfEach items := by
  induction items with
  | nil => rfl
  | cons item rest ih =>
      obtain ⟨here, later⟩ := List.forall_mem_cons.mp each
      rw [itemRecords, dataItems, here, ih later]
      rfl

theorem data_members {members : List (Wording × Datum)}
    (each : ∀ member ∈ members, data member.2.record = member.2.value) :
    dataItems (memberRecords members) =
      (entriesBy lastOfEach members).map fun entry => .dictionary [entry] := by
  induction members with
  | nil => rfl
  | cons member rest ih =>
      obtain ⟨here, later⟩ := List.forall_mem_cons.mp each
      have first : data (pairRecord member.1 member.2.record) =
          .dictionary [(member.1, data member.2.record)] := rfl
      rw [memberRecords, dataItems, first, here, ih later]
      rfl

/-- Joining dictionaries of one entry each leaves the last value of every key. -/
theorem join_singletons (entries : List (Wording × Value)) :
    join (entries.map fun entry => .dictionary [entry]) = .dictionary (lastOfEach entries) := by
  rw [join, lastOfEach, List.foldl_map]
  rfl

theorem data_object {members : List (Wording × Datum)}
    (each : ∀ member ∈ members, data member.2.record = member.2.value) :
    data (objectRecord (memberRecords members)) = (Datum.object members).value := by
  have joined :
      data (objectRecord (memberRecords members)) = join (dataItems (memberRecords members)) := rfl
  rw [joined, data_members each, join_singletons]
  rfl

/-- The record of a datum becomes the value that the datum stands for. -/
theorem data_record (datum : Datum) : data datum.record = datum.value := by
  induction datum with
  | word text => rfl
  | number written =>
      rw [record, value, valueBy, Written.value]
      split <;> rfl
  | list items each =>
      have listed : data (record (.list items)) = .list (dataItems (itemRecords items)) := rfl
      rw [listed, data_items each]
      rfl
  | truth held => cases held <;> rfl
  | null => rfl
  | object members each =>
      have held :
          data (record (.object members)) = data (objectRecord (memberRecords members)) := rfl
      rw [held, data_object each]

/-- No key stands twice in an object. -/
def Distinct : Datum → Prop
  | .object members => (members.map (·.1)).Nodup
  | _ => True

theorem put_new {known : List (Wording × Value)} {key : Wording} (new : key ∉ known.map (·.1))
    (value : Value) :
    Binding.put known key value = known ++ [(key, value)] := by
  induction known with
  | nil => rfl
  | cons entry rest ih =>
      simp only [List.map_cons, List.mem_cons, not_or] at new
      have other : (entry.1 == key) = false := by simpa using Ne.symm new.1
      simp [Binding.put, other, ih new.2]

theorem lastOfEach_eq {entries : List (Wording × Value)} (distinct : (entries.map (·.1)).Nodup) :
    lastOfEach entries = entries := by
  suffices behind : ∀ known : List (Wording × Value), ((known ++ entries).map (·.1)).Nodup →
      entries.foldl (fun known entry => Binding.put known entry.1 entry.2) known =
        known ++ entries from
    behind [] (by simpa using distinct)
  clear distinct
  induction entries with
  | nil => simp
  | cons entry rest ih =>
      intro known distinct
      have new : entry.1 ∉ known.map (·.1) := by
        rw [List.map_append, List.nodup_append] at distinct
        intro held
        exact distinct.2.2 entry.1 held entry.1 (by simp) rfl
      rw [List.foldl_cons, put_new new, ih (known ++ [entry]) (by simpa using distinct),
        List.append_assoc]
      rfl

/-- Where no key stands twice, an object stands for its entries as they are written. -/
theorem value_eq_plain {datum : Datum} (distinct : datum.Every Distinct) :
    datum.value = datum.plain := by
  induction distinct with
  | list here inside each =>
      simp only [value, plain, valueBy, itemsBy_eq] at each ⊢
      rw [List.map_congr_left each]
  | @object members here inside each =>
      have keys : (members.map (·.1)).Nodup := here
      simp only [value, plain, valueBy, entriesBy_eq, id] at each ⊢
      rw [lastOfEach_eq (by simpa [List.map_map, Function.comp_def] using keys)]
      congr 1
      exact List.map_congr_left fun member held => by rw [each member held]
  | _ => rfl

end Values

end Datum

end RecordGrammar.Worked.Json
