import RecordGrammar.Proofs.Match.Attributes
import RecordGrammar.Proofs.Match.Heap
import RecordGrammar.Proofs.Match.Steps
import RecordGrammar.Proofs.Registry.LifeCycle
import RecordGrammar.Proofs.Tree.Fields

namespace RecordGrammar

/-! What a match does to its target.

A match of a shape takes steps from left to right, and each step belongs to one of the fields.
Leaves assign to fields that hold no records, references assign to fields that hold one and append
to fields that hold many. So the fields come to hold what the steps for them say, and everything
else in the target stays.

What a target is made of is its own affair. Here it need only keep what it is given, and no list
that it is appended to may be the list of anything else; records and most objects are like that.
-/

theorem Leaf.bind_ok {taker : Leaf} {token : Token} {bindings : List Binding} {fields : List Field}
    {owner : ShapeRef} (fits : Tree.FitsNode fields owner (.leaf taker))
    (bound : taker.bind token = .ok bindings) :
    taker.field ∈ fields ∧ (bindings = [] ∨ taker.field.kind ≠ .nested ∧
      ∃ value, taker.field.kind.coerce token.text token.kind = .ok value ∧
        bindings = [.assign taker.field.name value]) := by
  have captured {field : Field} (captures : (field.kind.coerce token.text token.kind).map
        (fun value => [Binding.assign field.name value]) = .ok bindings) :
      ∃ value, field.kind.coerce token.text token.kind = .ok value ∧
        bindings = [.assign field.name value] := by
    cases coerced : field.kind.coerce token.text token.kind with
    | error error => simp [coerced, Except.map] at captures
    | ok value =>
        simp only [coerced, Except.map, Except.ok.injEq] at captures
        exact ⟨value, rfl, captures.symm⟩
  cases taker with
  | literal text field =>
      refine ⟨fits, ?_⟩
      simp only [bind, Except.ok.injEq] at bound
      split at bound
      · rename_i boolean
        refine .inr ⟨by simp [Leaf.field, boolean], .bool true, ?_, bound.symm⟩
        simp only [Leaf.field, boolean, ValueKind.coerce]
      · exact .inl bound.symm
  | captureLiteral text field => exact ⟨fits.1, .inr ⟨fits.2, captured bound⟩⟩
  | captureKind kind name field => exact ⟨fits.1, .inr ⟨fits.2, captured bound⟩⟩

namespace Step

/-- A step for one of some fields. -/
def Belongs (fields : List Field) (owner : ShapeRef) : Step → Prop
  | .leaf _ taker _ => Tree.FitsNode fields owner (.leaf taker)
  | .reference _ _ field _ _ _ => field ∈ fields

/-- The records that references make for a field. -/
def itemsFor (field : Field) : List Step → List Value
  | [] => []
  | .leaf _ _ _ :: rest => itemsFor field rest
  | .reference _ _ other _ item _ :: rest =>
      if other = field then item :: itemsFor field rest else itemsFor field rest

end Step

section Belonging

variable {env : Environment} {stream : TokenStream} {fields : List Field} {owner : ShapeRef}

mutual
theorem Takes.belongs {site : Site} {tree : Tree} {start stop : Nat} {steps : List Step} :
    Takes env stream site tree start stop steps → tree.Fits fields owner →
      ∀ step ∈ steps, step.Belongs fields owner
  | .empty, _ | .sequenceEnd, _ => by simp
  | .sequenceStep first rest, fits => by
      obtain ⟨here, later⟩ := List.forall_mem_cons.mp (Tree.every_sequence.mp fits).2
      exact List.forall_mem_append.mpr ⟨first.belongs here, rest.belongs (.sequence trivial later)⟩
  | .choiceTakes first, fits => by
      obtain ⟨here, _⟩ := List.forall_mem_cons.mp (Tree.every_alternation.mp fits).2
      exact first.belongs here
  | .choiceSkips _ rest, fits => by
      obtain ⟨_, later⟩ := List.forall_mem_cons.mp (Tree.every_alternation.mp fits).2
      exact rest.belongs (.alternation trivial later)
  | .turns turns _, fits => turns.belongs (Tree.every_repetition.mp fits).2
  | .leaf _ _ _ _, fits => List.forall_mem_singleton.mpr (Tree.every_leaf.mp fits)
  | .reference _ _ _ _ _ _, fits => List.forall_mem_singleton.mpr (Tree.every_reference.mp fits).1

theorem TakesTurns.belongs {site : Site} {inner : Tree} {bound : Bound}
    {taken start total stop : Nat} {steps : List Step} :
    TakesTurns env stream site inner bound taken start total stop steps → inner.Fits fields owner →
      ∀ step ∈ steps, step.Belongs fields owner
  | .full _, _ | .fails _ _, _ => by simp
  | .idles _ turn, fits => turn.belongs fits
  | .advances _ turn _ rest, fits =>
      List.forall_mem_append.mpr ⟨turn.belongs fits, rest.belongs fits⟩
end

end Belonging

namespace Shape

variable {shape : Shape} {id : ShapeId} {steps : List Step} {bindings : List Binding}
  {target filled : Value}

theorem WellFormed.eq_of_name {field other : Field} (wellFormed : shape.WellFormed)
    (here : field ∈ shape.fields) (there : other ∈ shape.fields) (same : field.name = other.name) :
    field = other :=
  List.inj_on_of_nodup_map wellFormed.distinct here there same

theorem WellFormed.single_of_scalar {field : Field} (wellFormed : shape.WellFormed)
    (here : field ∈ shape.fields) (scalar : field.kind ≠ .nested) : field.many = false := by
  cases many : field.many with
  | true => exact absurd (wellFormed.nested field here (wellFormed.collects field here many)) scalar
  | false => rfl

/-- A binding for one of the fields of a shape. It appends if and only if the field holds many. -/
def Binds (shape : Shape) (binding : Binding) : Prop :=
  ∃ field ∈ shape.fields, (field.many = false ∧ ∃ value, binding = .assign field.name value) ∨
    (field.many = true ∧ ∃ item, binding = .append field.name item)

theorem binds_of_step {env : Environment} {stream : TokenStream} {owner : ShapeRef} {step : Step}
    {binding : Binding} (wellFormed : shape.WellFormed) (belongs : step.Belongs shape.fields owner)
    (founded : step.Founded env stream) (inside : binding ∈ step.bindings) :
    shape.Binds binding := by
  cases step with
  | leaf index taker bindings =>
      obtain ⟨token, _, _, _, bound⟩ := founded
      obtain ⟨here, none | ⟨scalar, value, _, one⟩⟩ := Leaf.bind_ok belongs bound
      · simp [Step.bindings, none] at inside
      · have single := wellFormed.single_of_scalar here scalar
        simp only [Step.bindings, one, List.mem_singleton] at inside
        exact ⟨taker.field, here, .inl ⟨single, value, inside⟩⟩
  | reference start stop field found item inner =>
      rw [List.mem_singleton.mp inside, Field.holding]
      cases many : field.many with
      | true => exact ⟨field, belongs, .inr ⟨many, item, rfl⟩⟩
      | false => exact ⟨field, belongs, .inl ⟨many, item, rfl⟩⟩

theorem binds_of_steps {env : Environment} {stream : TokenStream} {owner : ShapeRef}
    (wellFormed : shape.WellFormed) (belongs : ∀ step ∈ steps, step.Belongs shape.fields owner)
    (founded : ∀ step ∈ steps, step.Founded env stream) :
    ∀ binding ∈ steps.flatMap Step.bindings, shape.Binds binding := by
  intro binding inside
  obtain ⟨step, held, inside⟩ := List.mem_flatMap.mp inside
  exact binds_of_step wellFormed (belongs step held) (founded step held) inside

/-- A target of the bindings of a shape: a record of the shape, or an object, which takes no value
under a few names. What the fields that hold many find there is a list or nothing. -/
structure Suits (shape : Shape) (id : ShapeId) (bindings : List Binding)
    (target : Value) : Prop where
  entity : (∃ name identity attributes, target = .entity (.record id) name identity attributes ∧
      attributes.map (·.1) = shape.fields.map (·.name)) ∨
    ∃ name identity attributes, target = .entity .factory name identity attributes ∧
      ∀ binding ∈ bindings, binding.name ∉ Member.unassignable
  collects : ∀ field ∈ shape.fields, field.many = true → target.Collects field.name

theorem Suits.gathers (suits : shape.Suits id bindings target) {field : Field}
    (here : field ∈ shape.fields) (many : field.many = true) :
    Gathers (target.attribute? field.name) := by
  rcases suits.collects field here many with lacks | list
  · refine .inl ?_
    cases held : target.attribute? field.name with
    | none => exact .inl rfl
    | some value =>
        have null : value.isNull = true := by simpa only [Value.lacks, held] using lacks
        cases value <;> simp [Value.isNull] at null
        exact .inr rfl
  · exact .inr list

theorem Suits.receives (suits : shape.Suits id bindings target)
    (binds : ∀ binding ∈ bindings, shape.Binds binding) : target.Receives bindings := by
  constructor
  · intro binding inside
    rcases suits.entity with ⟨name, identity, attributes, rfl, names⟩ |
      ⟨name, identity, attributes, rfl, willing⟩
    · have present : binding.name ∈ attributes.map (·.1) := by
        rw [names]
        obtain ⟨field, here, ⟨_, value, rfl⟩ | ⟨_, item, rfl⟩⟩ := binds binding inside <;>
          exact List.mem_map_of_mem here
      exact present
    · exact willing binding inside
  · intro name item inside none
    obtain ⟨field, here, ⟨_, value, same⟩ | ⟨many, other, same⟩⟩ := binds _ inside
    · cases same
    · cases same
      rcases suits.collects field here many with lacks | ⟨items, held⟩
      · exact lacks
      · cases none.symm.trans held

theorem ready_of_binds {prior : String → Option Value} (wellFormed : shape.WellFormed)
    (binds : ∀ binding ∈ bindings, shape.Binds binding)
    (gathers : ∀ field ∈ shape.fields, field.many = true → Gathers (prior field.name)) :
    Binding.Ready prior bindings := by
  constructor
  · intro name item inside
    obtain ⟨field, here, ⟨single, _, same⟩ | ⟨many, other, same⟩⟩ := binds _ inside
    · cases same
    · cases same
      exact gathers field here many
  · intro name value item assigned appended
    obtain ⟨field, here, ⟨single, _, same⟩ | ⟨_, _, same⟩⟩ := binds _ assigned
    · obtain ⟨other, there, ⟨_, _, sameToo⟩ | ⟨many, _, sameToo⟩⟩ := binds _ appended
      · cases sameToo
      · cases same
        have joint : field.name = other.name := congrArg Binding.name sameToo
        rw [wellFormed.eq_of_name here there joint, many] at single
        cases single
    · cases same

/-- What steps do to a target: nothing but what they bind. A field that holds one value comes to
hold the last one that is bound to it, and a field that holds many gets the records that references
make for it, in order, behind those that it held. -/
structure Effect (shape : Shape) (steps : List Step)
    (prior held : String → Option Value) : Prop where
  unnamed : ∀ name, (∀ binding ∈ steps.flatMap Step.bindings, binding.name ≠ name) →
    held name = prior name
  single : ∀ field ∈ shape.fields, field.many = false → ∀ before binding after,
    steps.flatMap Step.bindings = before ++ binding :: after → binding.name = field.name →
    (∀ later ∈ after, later.name ≠ field.name) →
    ∃ value, binding = .assign field.name value ∧ held field.name = some value
  many : ∀ field ∈ shape.fields, field.many = true → Step.itemsFor field steps ≠ [] →
    held field.name = some (.list (Value.itemsOf (prior field.name) ++ Step.itemsFor field steps))
  idle : ∀ field ∈ shape.fields, field.many = true → Step.itemsFor field steps = [] →
    held field.name = prior field.name

/-- The records for a field that holds many are the items appended under its name. -/
theorem itemsFor_steps {env : Environment} {stream : TokenStream} {owner : ShapeRef} {field : Field}
    (wellFormed : shape.WellFormed) (here : field ∈ shape.fields) (many : field.many = true)
    (belongs : ∀ step ∈ steps, step.Belongs shape.fields owner)
    (founded : ∀ step ∈ steps, step.Founded env stream) :
    Binding.itemsFor field.name (steps.flatMap Step.bindings) = Step.itemsFor field steps := by
  induction steps with
  | nil => rfl
  | cons step rest ih =>
      obtain ⟨belongs, belongsToo⟩ := List.forall_mem_cons.mp belongs
      obtain ⟨founded, foundedToo⟩ := List.forall_mem_cons.mp founded
      have ih := ih belongsToo foundedToo
      rw [List.flatMap_cons]
      cases step with
      | leaf index taker bindings =>
          obtain ⟨token, _, _, _, bound⟩ := founded
          obtain ⟨_, none | ⟨_, value, _, one⟩⟩ := Leaf.bind_ok belongs bound
          · simpa only [Step.bindings, none, List.nil_append, Step.itemsFor] using ih
          · simpa only [Step.bindings, one, List.singleton_append, Binding.itemsFor,
              Step.itemsFor] using ih
      | reference start stop other found item inner =>
          simp only [Step.bindings, List.singleton_append, Step.itemsFor, Field.holding]
          by_cases same : other = field
          · rw [same, if_pos many, if_pos rfl, Binding.itemsFor, if_pos rfl, ih]
          · rw [if_neg same]
            split
            · have apart : other.name ≠ field.name :=
                fun named => same (wellFormed.eq_of_name belongs here named)
              rw [Binding.itemsFor, if_neg apart, ih]
            · rw [Binding.itemsFor, ih]

theorem effect_of_fills {env : Environment} {stream : TokenStream} {owner : ShapeRef}
    {prior held : String → Option Value} (wellFormed : shape.WellFormed)
    (belongs : ∀ step ∈ steps, step.Belongs shape.fields owner)
    (founded : ∀ step ∈ steps, step.Founded env stream)
    (fills : Binding.Fills (steps.flatMap Step.bindings) prior held) :
    shape.Effect steps prior held := by
  have binds := binds_of_steps wellFormed belongs founded
  -- All bindings under the name of a field that holds many are those that append to it.
  have appends {field : Field} (here : field ∈ shape.fields) (many : field.many = true)
      {binding : Binding} (inside : binding ∈ steps.flatMap Step.bindings)
      (named : binding.name = field.name) :
      ∃ item, binding = .append field.name item := by
    obtain ⟨other, there, ⟨single, value, rfl⟩ | ⟨_, item, rfl⟩⟩ := binds binding inside
    · rw [wellFormed.eq_of_name there here named, many] at single
      cases single
    · exact ⟨item, by rw [show other.name = field.name from named]⟩
  constructor
  · exact fills.unnamed
  · intro field here single before binding after split named last
    have inside : binding ∈ steps.flatMap Step.bindings := by simp [split]
    obtain ⟨other, there, ⟨_, value, rfl⟩ | ⟨many, item, rfl⟩⟩ := binds binding inside
    · rw [show other.name = field.name from named] at split ⊢
      exact ⟨value, rfl, fills.assigned before field.name value after split last⟩
    · rw [wellFormed.eq_of_name there here named, single] at many
      cases many
  · intro field here many some
    rw [← itemsFor_steps wellFormed here many belongs founded] at some ⊢
    by_cases named : ∃ binding ∈ steps.flatMap Step.bindings, binding.name = field.name
    · obtain ⟨binding, inside, named⟩ := named
      obtain ⟨item, rfl⟩ := appends here many inside named
      exact fills.collected field.name item inside
    · refine absurd (Binding.itemsFor_eq_nil ?_) some
      exact fun binding inside same => named ⟨binding, inside, same⟩
  · intro field here many none
    apply fills.unnamed
    intro binding inside named
    obtain ⟨item, rfl⟩ := appends here many inside named
    rw [← itemsFor_steps wellFormed here many belongs founded] at none
    exact Binding.itemsFor_ne_nil inside none

/-- What steps bind is taken by any target that keeps it, and this is their effect. -/
theorem exists_effect {σ ρ ε : Type} {storage : Storage σ ρ ε} {holds : σ → String → Option Value}
    {sound : σ → Prop} {target : σ} {env : Environment} {stream : TokenStream} {owner : ShapeRef}
    (plain : storage.Plain holds sound (steps.flatMap Step.bindings))
    (unshared : storage.Unshared holds sound (steps.flatMap Step.bindings)) (start : sound target)
    (wellFormed : shape.WellFormed) (belongs : ∀ step ∈ steps, step.Belongs shape.fields owner)
    (founded : ∀ step ∈ steps, step.Founded env stream)
    (gathers : ∀ field ∈ shape.fields, field.many = true → Gathers (holds target field.name)) :
    ∃ filled, Binding.applyAllIn storage (steps.flatMap Step.bindings) target = .ok filled ∧
      shape.Effect steps (holds target) (holds filled) := by
  have ready :=
    ready_of_binds wellFormed (binds_of_steps wellFormed belongs founded) gathers
  obtain ⟨filled, applied, fills⟩ := Binding.applyAllIn_fills plain unshared start ready
  exact ⟨filled, applied, effect_of_fills wellFormed belongs founded fills⟩

end Shape

namespace Registry

/-- What a successful match does to its target, whatever has been done with the shapes before and
whatever makes and fills the records of references. This holds of each target that keeps what is
bound, and has a list to itself for each field that holds many. Records are such targets, and so
are objects, but for the names of a few members. -/
theorem match_fills {operations : List Operation} {kinds : KindTable} {stream : TokenStream}
    {id : ShapeId} {root : Tree}
    (made : ((performAll {} operations).environment kinds).root id = .ok root) {env : Environment}
    {fuel : Nat} {state next : MatchState} {bindings : List Binding}
    (within : state.index ≤ stream.size)
    (ran : root.run env stream fuel ⟨some id, 0⟩ state = .matched bindings next) :
    ∃ steps, Takes env stream ⟨some id, 0⟩ root state.index next.index steps ∧
      steps.flatMap Step.bindings = bindings ∧ Step.ShareOut state.index next.index steps ∧
      (∀ step ∈ steps, step.Founded env stream) ∧
      (∀ {σ ρ ε : Type} (storage : Storage σ ρ ε) (holds : σ → String → Option Value)
        (sound : σ → Prop),
        storage.Plain holds sound bindings → storage.Unshared holds sound bindings →
        ∀ target, sound target →
          (∀ field ∈ ((performAll {} operations).shape id).fields, field.many = true →
            Gathers (holds target field.name)) →
          ∃ filled, Binding.applyAllIn storage bindings target = .ok filled ∧
            ((performAll {} operations).shape id).Effect steps (holds target) (holds filled)) ∧
      ∀ target, ((performAll {} operations).shape id).Suits id bindings target →
        ∃ filled, Binding.applyAll bindings target = .ok filled ∧
          ((performAll {} operations).shape id).Effect steps target.attribute?
            filled.attribute? := by
  have wellFormed := (performAll_sound operations id (known_of_root made)).wellFormed
  obtain ⟨table, tree⟩ := ruleTree_of_root made
  obtain ⟨steps, took, rfl⟩ := Tree.takes_of_run within ran
  have belongs := took.belongs (Shape.ruleTree_fits tree)
  have founded := took.founded
  refine ⟨steps, took, rfl, took.shareOut, founded, ?_, ?_⟩
  · intro σ ρ ε storage holds sound plain unshared target start gathers
    exact Shape.exists_effect plain unshared start wellFormed belongs founded gathers
  · intro target suits
    have binds := Shape.binds_of_steps wellFormed belongs founded
    exact Shape.exists_effect (Value.ownStorage_plain _) (Value.ownStorage_unshared _)
      (suits.receives binds) wellFormed belongs founded
      fun field here many => suits.gathers here many

end Registry

namespace Phrase

open Registry

def wordsField : Field where
  name := "words"
  rule := "(@@)*"
  element := some (.shape 1 "Word")
  many := true

def wordField : Field where
  name := "word"
  rule := "@Ident"

/-- Phrases hold words. -/
def history : List Operation :=
  [.addShape "Phrase" none none none, .addShape "Word" none none none, .register 0 wordsField,
    .register 1 wordField]

def root : Tree := .repetition (.reference (.shape 1 "Word") wordsField.kept) .optionalOrMore

def name (text : String) (index : Nat) : Token where
  kind := some .identifier
  text := .ofString text
  position := { line := 1, column := index, index := index }

def pair : TokenStream where
  tokens := #[name "a" 0, name "b" 1, Nest.finish 2]
  ended := ⟨Nest.finish 2, rfl, rfl⟩

def word (text : String) : Value :=
  .entity (.record 1) "Word" none [("word", .text (.ofString text))]

/-- What is bound for the pair of words. -/
def added : List Binding := [.append "words" (word "a"), .append "words" (word "b")]

/-- A phrase that holds a word already. -/
def begun : Value := .entity (.record 0) "Phrase" none [("words", .list [word "c"])]

/-- An object that holds a word already. It has a log too, like all of its type. -/
def logged : Heap where
  own := fun name => if name = "words" then some (.list 0) else none
  inherited := fun name => if name = "log" then some (.list 1) else none
  lists := [[word "c"], []]

/-- An object whose log is the list of its words. -/
def entangled : Heap where
  own := fun name => if name = "words" ∨ name = "log" then some (.list 0) else none
  lists := [[]]

theorem suits_begun : ((performAll {} history).shape 0).Suits 0 added begun := by
  refine ⟨.inl ⟨_, _, _, rfl, rfl⟩, ?_⟩
  intro field here _
  have only : field = wordsField.kept := List.mem_singleton.mp here
  rw [only]
  exact .inr ⟨_, rfl⟩

theorem cell?_logged (name : String) : logged.cell? name =
    if name = "words" then some (.list 0) else if name = "log" then some (.list 1) else none := by
  simp only [Heap.cell?, logged]
  split <;> simp

theorem sound_logged : logged.Sound added where
  willing := fun _ _ => rfl
  apart := by
    intro name other place told toldToo
    rw [cell?_logged] at told toldToo
    grind
  inside := by
    intro name place told
    rw [cell?_logged] at told
    simp only [logged, List.length_cons, List.length_nil]
    grind
  placed := by
    intro name items told
    rw [cell?_logged] at told
    grind

theorem pair_matched :
    ∃ next, root.run ((performAll {} history).environment .standard) pair 9 ⟨some 0, 0⟩ {} =
      .matched added next ∧ next.index = 2 :=
  Outcome.matched_of_verdict? rfl

theorem begun_filled :
    ((performAll {} history).environment .standard).root 0 = .ok root ∧ (0 : Nat) ≤ pair.size ∧
      ∃ next steps,
        root.run ((performAll {} history).environment .standard) pair 9 ⟨some 0, 0⟩ {} =
          .matched added next ∧
        Step.ShareOut 0 2 steps ∧
        (∃ filled : Value,
          ((performAll {} history).shape 0).Effect steps begun.attribute? filled.attribute? ∧
          filled.attribute? "words" = some (.list [word "c", word "a", word "b"])) ∧
        ∃ filled : Heap, ((performAll {} history).shape 0).Effect steps logged.holds filled.holds ∧
          filled.holds "words" = some (.list [word "c", word "a", word "b"]) ∧
          filled.holds "log" = some (.list []) := by
  have made : ((performAll {} history).environment .standard).root 0 = .ok root := rfl
  obtain ⟨next, ran, stopped⟩ := pair_matched
  obtain ⟨steps, _, _, shared, _, general, own⟩ := match_fills made (Nat.zero_le _) ran
  refine ⟨made, Nat.zero_le _, next, steps, ran, stopped ▸ shared, ?_, ?_⟩
  · obtain ⟨filled, applied, effect⟩ := own begun suits_begun
    have known : Binding.applyAll added begun = .ok (.entity (.record 0) "Phrase" none
        [("words", .list [word "c", word "a", word "b"])]) := rfl
    refine ⟨filled, effect, ?_⟩
    cases known.symm.trans applied
    rfl
  · obtain ⟨filled, applied, effect⟩ :=
      general Heap.storage Heap.holds (Heap.Sound added) (Heap.storage_plain added)
        (Heap.storage_unshared added) logged sound_logged (by
          intro field here _
          rw [show field = wordsField.kept from List.mem_singleton.mp here]
          exact .inr ⟨[word "c"], rfl⟩)
    have known : Binding.applyAllIn Heap.storage added logged =
        .ok ((logged.grow 0 (word "a")).grow 0 (word "b")) := rfl
    refine ⟨filled, effect, ?_⟩
    cases known.symm.trans applied
    exact ⟨rfl, rfl⟩

def classField : Field where
  name := "__class__"
  rule := "@Ident"

/-- Objects with a field that has the name of what tells their type. -/
def objects : List Operation := [.addShape "Object" none none (some []), .register 0 classField]

/-- A match binds a text to the type of an object, and the new object does not take it. Another
appends to words alone, and the log of the target, for which nothing is bound, grows with them. -/
theorem class_refused_and_log_grown :
    (∃ root bindings next target,
      ((performAll {} objects).environment .standard).root 0 = .ok root ∧
      root.run ((performAll {} objects).environment .standard) pair 9 ⟨some 0, 0⟩ {} =
        .matched bindings next ∧
      ((performAll {} objects).environment .standard).fresh 0 = .ok target ∧
      (∀ field ∈ ((performAll {} objects).shape 0).fields, field.many = false) ∧
      ¬ ∃ filled, Binding.applyAll bindings target = .ok filled) ∧
    ∃ next filled,
      root.run ((performAll {} history).environment .standard) pair 9 ⟨some 0, 0⟩ {} =
        .matched added next ∧
      (∀ binding ∈ added, binding.name ≠ "log") ∧
      (∀ field ∈ ((performAll {} history).shape 0).fields, Gathers (entangled.holds field.name)) ∧
      Binding.applyAllIn Heap.storage added entangled = .ok filled ∧
      entangled.holds "log" = some (.list []) ∧
      filled.holds "log" = some (.list [word "a", word "b"]) := by
  constructor
  · have found : ((Tree.leaf (.captureKind (some .identifier) "Ident" classField)).run
        ((performAll {} objects).environment .standard) pair 9 ⟨some 0, 0⟩ {}).verdict? =
          some (.success 1 [.assign "__class__" (.text (.ofString "a"))]) := rfl
    obtain ⟨next, ran, _⟩ := Outcome.matched_of_verdict? found
    refine ⟨_, _, next, .entity .factory "Object" none [], rfl, ran, rfl, ?_, ?_⟩
    · intro field here
      have only : field = classField := List.mem_singleton.mp here
      rw [only]
      rfl
    · intro ⟨filled, applied⟩
      have refused : Binding.applyAll [.assign "__class__" (.text (.ofString "a"))]
          (.entity .factory "Object" none []) = .error (.notAType "str") := rfl
      cases refused.symm.trans applied
  · obtain ⟨next, ran, _⟩ := pair_matched
    refine ⟨next, (entangled.grow 0 (word "a")).grow 0 (word "b"),
      ran, by simp [added, Binding.name], ?_, rfl, rfl, rfl⟩
    intro field here
    have only : field = wordsField.kept := List.mem_singleton.mp here
    rw [only]
    exact .inr ⟨[], rfl⟩

end Phrase

end RecordGrammar
