import RecordGrammar.Proofs.Match.Attributes
import RecordGrammar.Proofs.Parse.Decision
import RecordGrammar.Proofs.Worked.Json.Datum

namespace RecordGrammar.Worked.Json

open RecordGrammar.Text
open RecordGrammar.Decimal (Written)

/-! What the grammar of JSON texts takes: the tokens of a datum, from the first to the last. -/

section Trees

def pairsField : Field :=
  { name := "pairs", rule := "'\x7b' @@ (',' @@)* '\x7d' | '\x7b' '\x7d'", kind := .nested
    element := some (.named "Pair"), many := true }

def keyField : Field := { name := "key", rule := "@String ':'" }

def heldField : Field :=
  { name := "value", rule := "@@", kind := .nested, element := some (.named "JsonValue") }

def textField : Field := { name := "text", rule := "@String" }

def numberField : Field := { name := "number", rule := "| @Number", kind := .scalar }

def itemsField : Field :=
  { name := "items", rule := "| '[' @@ (',' @@)* ']' | '[' ']'", kind := .nested
    element := some (.named "JsonValue"), many := true }

def truthField : Field := { name := "truth", rule := "| @('true' | 'false')" }

def nullField : Field := { name := "null", rule := "| 'null'", kind := .boolean }

def objectField : Field :=
  { name := "object", rule := "| @@", kind := .nested, element := some (.named "JsonObject") }

/-- Brackets around something, and then more of it behind commas. -/
def fullTree (left right : Char) (target : ShapeRef) (field : Field) : Tree :=
  .sequence
    [.leaf (.literal (.singleton left) field), .reference target field,
     .repetition (.sequence [.leaf (.literal "," field), .reference target field]) .optionalOrMore,
     .leaf (.literal (.singleton right) field)]

/-- Brackets around nothing. -/
def emptyTree (left right : Char) (field : Field) : Tree :=
  .sequence [.leaf (.literal (.singleton left) field), .leaf (.literal (.singleton right) field)]

def objectTree : Tree :=
  .alternation [fullTree '\x7b' '\x7d' (.named "Pair") pairsField,
    emptyTree '\x7b' '\x7d' pairsField]

def pairTree : Tree :=
  .sequence
    [.leaf (.captureKind (some .string) "String" keyField), .leaf (.literal ":" keyField),
     .reference (.named "JsonValue") heldField]

def truthTree : Tree :=
  .alternation [.leaf (.captureLiteral "true" truthField),
    .leaf (.captureLiteral "false" truthField)]

def valueTree : Tree :=
  .alternation
    [.leaf (.captureKind (some .string) "String" textField),
      .leaf (.captureKind (some .number) "Number" numberField),
     fullTree '[' ']' (.named "JsonValue") itemsField, emptyTree '[' ']' itemsField, truthTree,
     .leaf (.literal "null" nullField), .reference (.named "JsonObject") objectField]

/-- What references stand for in the rules of JSON texts. -/
def env : Environment := registry.environment scanner.kinds

set_option maxRecDepth 20000 in
theorem root_object : env.root objectId = .ok objectTree := by cbv

set_option maxRecDepth 20000 in
theorem root_pair : env.root pairId = .ok pairTree := by cbv

set_option maxRecDepth 20000 in
theorem root_value : env.root valueId = .ok valueTree := by cbv

def blankObject : Value := objectRecord []

def blankPair : Value := .entity (.record pairId) pair.name none [("key", .null), ("value", .null)]

def blankValue : Value :=
  .entity (.record valueId) value.name none
    [("text", .null), ("number", .null), ("items", .list []), ("truth", .null),
      ("null", .bool false), ("object", .null)]

theorem fresh_object : env.fresh objectId = .ok blankObject := rfl

theorem fresh_pair : env.fresh pairId = .ok blankPair := rfl

theorem fresh_value : env.fresh valueId = .ok blankValue := rfl

theorem resolve_pair {site : Site} (owned : site.owner = some objectId) :
    env.resolve site (.named "Pair") = .ok pairId := by
  obtain ⟨owner, slot⟩ := site
  cases owned
  rw [show env.resolve = registry.resolve from rfl]
  cbv

theorem resolve_value {site : Site} (owned : site.owner = some pairId ∨ site.owner = some valueId) :
    env.resolve site (.named "JsonValue") = .ok valueId := by
  obtain ⟨owner, slot⟩ := site
  rcases owned with owned | owned
  all_goals
    cases owned
    rw [show env.resolve = registry.resolve from rfl]
    cbv

theorem resolve_object {site : Site} (owned : site.owner = some valueId) :
    env.resolve site (.named "JsonObject") = .ok objectId := by
  obtain ⟨owner, slot⟩ := site
  cases owned
  rw [show env.resolve = registry.resolve from rfl]
  cbv

end Trees

section Single

variable {stream : TokenStream} {site : Site} {place : Nat} {face : Face} {field : Field}
  {text : String}

/-- The next token has a face. -/
def Sees (stream : TokenStream) (place : Nat) (face : Face) : Prop :=
  ∃ token, stream.token? place = some token ∧ token.isEnd = false ∧ token.face = face

theorem Sees.same (sees : Sees stream place face) {token : Token}
    (here : stream.token? place = some token) :
    token.face = face := by
  obtain ⟨_, found, _, same⟩ := sees
  cases found.symm.trans here
  exact same

theorem Sees.capture_fails (sees : Sees stream place face) {kind : TokenKind} {name : String}
    (other : face.1 ≠ some kind) :
    Derives env stream site (.leaf (.captureKind (some kind) name field)) place .failure :=
  Derives.captureKind_fails fun _ here _ same =>
    other ((congrArg Prod.fst (sees.same here)).symm.trans same)

theorem Sees.literal_fails (sees : Sees stream place face) (other : face.2 ≠ .ofString text) :
    Derives env stream site (.leaf (.literal text field)) place .failure :=
  Derives.literal_fails fun _ here _ same =>
    other ((congrArg Prod.snd (sees.same here)).symm.trans same)

theorem Sees.captureLiteral_fails (sees : Sees stream place face)
    (other : face.2 ≠ .ofString text) :
    Derives env stream site (.leaf (.captureLiteral text field)) place .failure :=
  Derives.captureLiteral_fails fun _ here _ same =>
    other ((congrArg Prod.snd (sees.same here)).symm.trans same)

theorem Sees.literal_takes (sees : Sees stream place face) (same : face.2 = .ofString text)
    (plain : field.kind = .nested ∨ field.kind = .text) :
    Derives env stream site (.leaf (.literal text field)) place (.success (place + 1) []) := by
  obtain ⟨token, here, unmarked, rfl⟩ := sees
  refine Derives.literal_iff.mpr ⟨token, here, unmarked, same, rfl, ?_⟩
  rcases plain with plain | plain <;> simp [plain]

end Single

/-- A token has the face of a mark. -/
def Mark.Shows (mark : Mark) (token : Token) : Prop := token.face = mark.face

section Groups

variable {Item : Type} {stream : TokenStream} {site : Site} {place : Nat} {verdict : Verdict}
  {left right : Char} {quotable : Bool} {target : ShapeRef} {field : Field} {owner : Option ShapeId}
  {marks : Item → List Mark} {give : Item → Value} {items : List Item} {others : List Tree}

theorem group_takes (nested : field.kind = .nested) (apart : right ≠ ',')
    (turn : ∀ item ∈ items, ∀ place site, Site.owner site = owner →
      stream.Spells Mark.Shows place (marks item) →
      Derives env stream site (.reference target field) place
        (.success (place + (marks item).length) [.append field.name (give item)]))
    (stops : ∀ place site, Site.owner site = owner → Sees stream place (Mark.sign right true).face →
      Derives env stream site (.reference target field) place .failure)
    (owned : site.owner = owner)
    (spells : stream.Spells Mark.Shows place (groupMarks left right quotable marks items)) :
    Derives env stream site
      (.alternation (fullTree left right target field :: emptyTree left right field :: others))
        place
      (.success (place + (groupMarks left right quotable marks items).length)
        (items.map fun item => .append field.name (give item))) := by
  have opened (site : Site) :
      Derives env stream site (.leaf (.literal (.singleton left) field)) place
        (.success (place + 1) []) :=
        Sees.literal_takes spells.1 (by simp [Mark.face, Wording.ofString]) (.inl nested)
  have closed (place : Nat) (site : Site) (sees : Sees stream place (Mark.sign right true).face) :
      Derives env stream site (.leaf (.literal (.singleton right) field)) place
        (.success (place + 1) []) :=
    sees.literal_takes (by simp [Mark.face, Wording.ofString]) (.inl nested)
  cases items with
  | nil =>
      have next : Sees stream (place + 1) (Mark.sign right true).face := spells.2.1
      refine .choiceSkips (.sequenceStep (opened _) (.sequenceFails (stops _ _ owned next)))
        (.choiceTakes ?_)
      exact .sequenceStep (opened _) (.sequenceStep (closed _ _ next) .sequenceEnd)
  | cons first rest =>
      obtain ⟨_, inside⟩ := spells
      have listed : (first :: rest).flatMap (fun item => Mark.sign ',' true :: marks item) =
          .sign ',' true :: (marks first ++ rest.flatMap fun item =>
            .sign ',' true :: marks item) := rfl
      rw [listed, List.tail_cons, List.append_assoc, TokenStream.spells_append,
        TokenStream.spells_append] at inside
      obtain ⟨head, later, last, _⟩ := inside
      have comma (place : Nat) (site : Site) (sees : Sees stream place (Mark.sign ',' true).face) :
          Derives env stream site (.leaf (.literal "," field)) place (.success (place + 1) []) :=
        sees.literal_takes rfl (.inl nested)
      have again (site : Site) (owned : site.owner = owner) : ∀ item ∈ rest, ∀ place,
          stream.Spells Mark.Shows place (.sign ',' true :: marks item) → True →
            Derives env stream site
              (.sequence [.leaf (.literal "," field), .reference target field]) place
              (.success (place + (Mark.sign ',' true :: marks item).length)
                [.append field.name (give item)]) := by
        intro item held place spells _
        have taken := Derives.sequenceStep (comma place site spells.1)
          (.sequenceStep (turn item (by simp [held]) _ _ owned spells.2) .sequenceEnd)
        rwa [List.length_cons, Nat.add_comm (marks item).length, ← Nat.add_assoc]
      have ended (site : Site) : Derives env stream site
          (.sequence [.leaf (.literal "," field), .reference target field])
          (place + 1 + (marks first).length +
            (rest.flatMap fun item => .sign ',' true :: marks item).length) .failure :=
        .sequenceFails
          (Sees.literal_fails last
            (by simpa [Mark.face, Wording.ofString, Wording.ofChars] using apart))
      have more (site : Site) (owned : site.owner = owner) :=
        Derives.repetition_of_items (fun _ => True)
        (by simp) (again site owned) (fun _ _ _ _ => trivial) later (ended site) trivial
      have whole :=
        Derives.sequenceStep (opened site) (.sequenceStep (turn first (by simp) _ _ owned head)
        (.sequenceStep (more _ owned) (.sequenceStep (closed _ _ last) .sequenceEnd)))
      have long : place + (groupMarks left right quotable marks (first :: rest)).length =
          place + 1 + (marks first).length +
            (rest.flatMap fun item => .sign ',' true :: marks item).length + 1 := by
        simp only [groupMarks, listed, List.tail_cons, List.length_cons, List.length_append,
          List.length_nil]
        omega
      simp only [Verdict.prepend, List.nil_append, List.append_nil] at whole
      rw [long, List.map_eq_flatMap]
      exact .choiceTakes whole

theorem group_skips (sees : ∃ face, Sees stream place face ∧ face.2 ≠ .ofChars [left])
    (rest : ∀ site, Site.owner site = owner →
      Derives env stream site (.alternation others) place verdict)
    (owned : site.owner = owner) :
    Derives env stream site
      (.alternation (fullTree left right target field :: emptyTree left right field :: others))
        place verdict := by
  obtain ⟨face, sees, other⟩ := sees
  have shut (site : Site) :
      Derives env stream site (.leaf (.literal (.singleton left) field)) place .failure :=
    sees.literal_fails (by simpa [Wording.ofString] using other)
  exact .choiceSkips (.sequenceFails (shut _))
    (.choiceSkips (.sequenceFails (shut _)) (rest _ owned))

end Groups

section Data

variable {stream : TokenStream} {site : Site} {place : Nat} {face : Face} {verdict : Verdict}

namespace Datum

/-- What the tokens of a datum bind. -/
def bindings : Datum → List Binding
  | .word text => [.assign "text" (.text text)]
  | .number written => [.assign "number" written.value]
  | .list items => items.map fun item => .append "items" item.record
  | .truth held => [.assign "truth" (.text (.ofString (truthName held)))]
  | .null => [.assign "null" (.bool true)]
  | .object members => [.assign "object" (objectRecord (memberRecords members))]

theorem fills (datum : Datum) : Binding.applyAll datum.bindings blankValue = .ok datum.record := by
  cases datum with
  | list items =>
      have filled :=
        @Binding.applyAll_appends valueId Json.value.name "items" none
          [("text", .null), ("number", .null)]
        [("truth", .null), ("null", .bool false), ("object", .null)] (by simp) [] (items.map record)
      rw [List.map_map] at filled
      rw [record, itemRecords_eq]
      exact filled
  | _ => rfl

/-- A number that can be read. -/
def Legible : Datum → Prop
  | .number written => written.WellFormed ∧ written.Short
  | _ => True

end Datum

theorem objectRecord_fills (records : List Value) :
    Binding.applyAll (records.map (.append "pairs")) blankObject = .ok (objectRecord records) :=
  @Binding.applyAll_appends objectId Json.object.name "pairs" none [] [] (by simp) [] records

theorem pairRecord_fills (key : Wording) (value : Value) :
    Binding.applyAll [.assign "key" (.text key), .assign "value" value] blankPair =
      .ok (pairRecord key value) := rfl

section Skips

theorem truth_fails (sees : Sees stream place face)
    (other : face.2 ≠ .ofString "true" ∧ face.2 ≠ .ofString "false") :
    Derives env stream site truthTree place .failure :=
  .choiceSkips (sees.captureLiteral_fails other.1)
    (.choiceSkips (sees.captureLiteral_fails other.2) .choiceEnd)

theorem object_fails (sees : Sees stream place face) (other : face.2 ≠ .ofChars ['\x7b']) :
    Derives env stream site objectTree place .failure :=
  group_skips ⟨face, sees, other⟩ (fun _ _ => .choiceEnd) rfl

/-- What is neither a string nor a number and does not open a list is one of the rest. -/
theorem value_skips (sees : Sees stream place face)
    (kinds : face.1 ≠ some .string ∧ face.1 ≠ some .number) (other : face.2 ≠ .ofChars ['['])
    (owned : site.owner = some valueId) (rest : ∀ site, Site.owner site = some valueId →
      Derives env stream site (.alternation
        [truthTree, .leaf (.literal "null" nullField),
          .reference (.named "JsonObject") objectField]) place verdict) :
    Derives env stream site valueTree place verdict :=
  .choiceSkips (sees.capture_fails kinds.1) (.choiceSkips (sees.capture_fails kinds.2)
    (group_skips ⟨face, sees, other⟩ rest owned))

/-- A closing bracket begins no value. -/
theorem value_fails (owned : site.owner = some pairId ∨ site.owner = some valueId) (field : Field)
    (sees : Sees stream place (Mark.sign ']' true).face) :
    Derives env stream site (.reference (.named "JsonValue") field) place .failure := by
  refine .referenceFails valueId (resolve_value owned) root_value
    (value_skips sees (by decide) (by decide) rfl fun site owned => ?_)
  have object :
      Derives env stream ((site.after truthTree).after (.leaf (.literal "null" nullField)))
      (.reference (.named "JsonObject") objectField) place .failure :=
    .referenceFails objectId (resolve_object owned) root_object (object_fails sees (by decide))
  exact .choiceSkips (truth_fails sees (by decide)) (.choiceSkips (sees.literal_fails (by decide))
    (.choiceSkips object .choiceEnd))

theorem pair_fails (owned : site.owner = some objectId) (field : Field)
    (sees : Sees stream place (Mark.sign '\x7d' true).face) :
    Derives env stream site (.reference (.named "Pair") field) place .failure :=
  .referenceFails pairId (resolve_pair owned) root_pair
    (.sequenceFails (sees.capture_fails (by decide)))

end Skips

namespace Datum

/-- The tokens of a datum are taken by the tree of values. -/
def Taken (stream : TokenStream) (datum : Datum) : Prop :=
  ∀ place site, Site.owner site = some valueId → stream.Spells Mark.Shows place datum.marks →
    Derives env stream site valueTree place (.success (place + datum.marks.length) datum.bindings)

theorem Taken.refers {datum : Datum} (taken : datum.Taken stream)
    (owned : site.owner = some pairId ∨ site.owner = some valueId) (field : Field)
    (spells : stream.Spells Mark.Shows place datum.marks) :
    Derives env stream site (.reference (.named "JsonValue") field) place
      (.success (place + datum.marks.length) [field.holding datum.record]) :=
  (Derives.reference_iff (resolve_value owned) root_value fresh_value).mpr
    ⟨_, _, taken place ⟨some valueId, 0⟩ rfl spells, datum.fills, rfl⟩

theorem Taken.pair {member : Wording × Datum} (taken : member.2.Taken stream)
    (owned : site.owner = some objectId)
    (spells : stream.Spells Mark.Shows place (pairMarks member)) :
    Derives env stream site (.reference (.named "Pair") pairsField) place
      (.success (place + (pairMarks member).length)
        [.append "pairs" (pairRecord member.1 member.2.record)]) := by
  obtain ⟨⟨key, here, unmarked, shows⟩, colon, value⟩ := spells
  have first (site : Site) :
      Derives env stream site (.leaf (.captureKind (some .string) "String" keyField)) place
        (.success (place + 1) [.assign "key" (.text member.1)]) := by
    refine Derives.captureKind_iff.mpr
      ⟨key, _, here, unmarked, congrArg Prod.fst shows, ?_, rfl, rfl⟩
    rw [show key.text = member.1 from congrArg Prod.snd shows]
    rfl
  have second (site : Site) : Derives env stream site (.leaf (.literal ":" keyField)) (place + 1)
      (.success (place + 1 + 1) []) := Sees.literal_takes colon rfl (.inr rfl)
  have third (site : Site) (owned : site.owner = some pairId) :=
    taken.refers (.inl owned) heldField value
  have whole := Derives.sequenceStep (first ⟨some pairId, 0⟩) (.sequenceStep (second _)
    (.sequenceStep (third _ rfl) .sequenceEnd))
  have long : place + (pairMarks member).length = place + 1 + 1 + member.2.marks.length := by
    simp only [pairMarks, List.length_cons]
    omega
  rw [long]
  exact (Derives.reference_iff (resolve_pair owned) root_pair fresh_pair).mpr
    ⟨_, _, whole, pairRecord_fills member.1 member.2.record, rfl⟩

/-- The tokens of an object are taken by the tree of objects, whichever way it is opened. -/
theorem object_takes {members : List (Wording × Datum)}
    (taken : ∀ member ∈ members, member.2.Taken stream) (quotable : Bool)
    (owned : site.owner = some objectId)
    (spells : stream.Spells Mark.Shows place
      (groupMarks '\x7b' '\x7d' quotable pairMarks members)) :
    Derives env stream site objectTree place
      (.success (place + (groupMarks '\x7b' '\x7d' quotable pairMarks members).length)
        ((memberRecords members).map (.append "pairs"))) := by
  rw [memberRecords_eq, List.map_map]
  exact group_takes rfl (by decide)
    (fun member held place site owned spells => (taken member held).pair owned spells)
    (fun place site owned sees => pair_fails owned pairsField sees) owned spells

theorem takes {datum : Datum} (legible : datum.Every Legible) : datum.Taken stream := by
  induction legible with
  | word here =>
      rintro place site owned ⟨⟨token, found, unmarked, shows⟩, _⟩
      refine .choiceTakes (Derives.captureKind_iff.mpr
        ⟨token, _, found, unmarked, congrArg Prod.fst shows, ?_, rfl, rfl⟩)
      rw [show token.text = _ from congrArg Prod.snd shows]
      rfl
  | @number written here =>
      obtain ⟨wellFormed, short⟩ : written.WellFormed ∧ written.Short := here
      rintro place site owned ⟨⟨token, found, unmarked, shows⟩, _⟩
      have sees : Sees stream place (Mark.number written).face := ⟨token, found, unmarked, shows⟩
      refine .choiceSkips (sees.capture_fails (by simp [Mark.face]))
        (.choiceTakes (Derives.captureKind_iff.mpr
          ⟨token, _, found, unmarked, congrArg Prod.fst shows, ?_, rfl, rfl⟩))
      rw [show token.text = _ from congrArg Prod.snd shows,
        show token.kind = _ from congrArg Prod.fst shows]
      exact ValueKind.toScalar_written wellFormed short
  | @list items here inside each =>
      intro place site owned spells
      rw [marks_list] at spells ⊢
      have sees : Sees stream place (Mark.sign '[' false).face := spells.1
      refine .choiceSkips (sees.capture_fails (by decide))
        (.choiceSkips (sees.capture_fails (by decide)) ?_)
      exact group_takes rfl (by decide)
        (fun item held place site owned spells =>
          (each item held).refers (.inr owned) itemsField spells)
        (fun place site owned sees => value_fails (.inr owned) itemsField sees) owned spells
  | @truth held here =>
      rintro place site owned ⟨⟨token, found, unmarked, shows⟩, _⟩
      have sees : Sees stream place (Mark.name (truthName held)).face :=
        ⟨token, found, unmarked, shows⟩
      have captured (site : Site) :
          Derives env stream site (.leaf (.captureLiteral (truthName held) truthField)) place
            (.success (place + 1) (truth held).bindings) := by
        have text : token.text = .ofString (truthName held) := congrArg Prod.snd shows
        exact Derives.captureLiteral_iff.mpr
          ⟨token, _, found, unmarked, text, by rw [text]; rfl, rfl, rfl⟩
      refine value_skips sees (by simp [Mark.face]) (by cases held <;> decide) owned
        fun site owned => .choiceTakes ?_
      cases held with
      | true => exact .choiceTakes (captured site)
      | false =>
          exact .choiceSkips (sees.captureLiteral_fails (by decide)) (.choiceTakes (captured _))
  | null here =>
      rintro place site owned ⟨⟨token, found, unmarked, shows⟩, _⟩
      have sees : Sees stream place (Mark.name "null").face := ⟨token, found, unmarked, shows⟩
      refine value_skips sees (by decide) (by decide) owned fun site owned =>
        .choiceSkips (truth_fails sees (by decide))
        (.choiceTakes
          (Derives.literal_iff.mpr ⟨token, found, unmarked, congrArg Prod.snd shows, rfl, rfl⟩))
  | @object members here inside each =>
      intro place site owned spells
      rw [marks_object] at spells ⊢
      have sees : Sees stream place (Mark.sign '\x7b' false).face := spells.1
      refine value_skips sees (by decide) (by decide) owned fun site owned => ?_
      refine .choiceSkips (truth_fails sees (by decide))
        (.choiceSkips (sees.literal_fails (by decide)) (.choiceTakes ?_))
      exact (Derives.reference_iff (resolve_object owned) root_object fresh_object).mpr
        ⟨_, _, object_takes each false rfl spells, objectRecord_fills _, rfl⟩

end Datum

end Data

end RecordGrammar.Worked.Json
