import RecordGrammar.Proofs.Match.Termination

namespace RecordGrammar

/-! What the parts of a tree come to, told from what the whole comes to, and which tokens lie ahead
of a match. -/

/-- From an index on, the tokens fit what is wanted, one by one, and none of them marks the end. -/
def TokenStream.Spells {α : Type} (stream : TokenStream) (fits : α → Token → Prop) :
    Nat → List α → Prop
  | _, [] => True
  | start, mark :: rest =>
      (∃ token, stream.token? start = some token ∧ token.isEnd = false ∧ fits mark token) ∧
        stream.Spells fits (start + 1) rest

namespace TokenStream

variable {α : Type} {stream : TokenStream} {fits : α → Token → Prop} {start : Nat} {wanted : List α}

@[simp] theorem spells_nil : stream.Spells fits start [] := trivial

@[simp] theorem spells_cons {mark : α} : stream.Spells fits start (mark :: wanted) ↔
    (∃ token, stream.token? start = some token ∧ token.isEnd = false ∧ fits mark token) ∧
      stream.Spells fits (start + 1) wanted := .rfl

@[simp] theorem spells_append {later : List α} : stream.Spells fits start (wanted ++ later) ↔
    stream.Spells fits start wanted ∧ stream.Spells fits (start + wanted.length) later := by
  induction wanted generalizing start with
  | nil => simp
  | cons mark rest ih =>
      rw [List.cons_append, spells_cons, spells_cons, ih, List.length_cons, and_assoc,
        Nat.add_right_comm start 1, Nat.add_assoc start]

theorem token?_eq_some_iff {token : Token} :
    stream.token? start = some token ↔
      stream.tokens.toList.drop start = token :: stream.tokens.toList.drop (start + 1) := by
  rw [token?, ← Array.getElem?_toList]
  constructor
  · intro found
    obtain ⟨inside, rfl⟩ := List.getElem?_eq_some_iff.mp found
    exact List.drop_eq_getElem_cons inside
  · intro same
    have head := congrArg List.head? same
    simpa using head

theorem spells_iff : stream.Spells fits start wanted ↔
    ∃ taken, taken <+: stream.tokens.toList.drop start ∧ List.Forall₂ fits wanted taken ∧
      ∀ token ∈ taken, token.isEnd = false := by
  induction wanted generalizing start with
  | nil => exact ⟨fun _ => ⟨[], List.nil_prefix, .nil, by simp⟩, fun _ => trivial⟩
  | cons mark rest ih =>
      rw [spells_cons, ih]
      constructor
      · rintro ⟨⟨token, here, unmarked, fit⟩, taken, front, each, ends⟩
        refine ⟨token :: taken, ?_, .cons fit each, ?_⟩
        · rw [token?_eq_some_iff.mp here]
          exact List.cons_prefix_cons.mpr ⟨rfl, front⟩
        · exact List.forall_mem_cons.mpr ⟨unmarked, ends⟩
      · rintro ⟨taken, front, each, ends⟩
        cases each with
        | @cons _ token _ later fit each =>
            obtain ⟨tail, ahead⟩ := front
            have behind : stream.tokens.toList.drop (start + 1) = later ++ tail := by
              rw [← List.tail_drop, ← ahead]
              rfl
            have here : stream.token? start = some token := by
              rw [token?_eq_some_iff, behind, ← ahead]
              rfl
            exact ⟨⟨token, here, ends token (by simp), fit⟩, later, ⟨tail, behind.symm⟩, each,
              fun other held => ends other (by simp [held])⟩

/-- What is spelled up to the end of a stream is spelled by all of its tokens but the last. -/
theorem Spells.whole {tokens : List Token} {last stop : Token}
    (spells : stream.Spells fits 0 wanted) (whole : stream.tokens.toList = tokens ++ [last])
    (unmarked : ∀ token ∈ tokens, token.isEnd = false) (marked : last.isEnd = true)
    (found : stream.token? wanted.length = some stop) (ended : stop.isEnd = true) :
    List.Forall₂ fits wanted tokens := by
  obtain ⟨taken, ⟨rest, ahead⟩, each, ends⟩ := spells_iff.mp spells
  rw [List.drop_zero, whole] at ahead
  rw [token?, ← Array.getElem?_toList, whole, ← ahead, each.length_eq,
    List.getElem?_append_right (Nat.le_refl _), Nat.sub_self] at found
  obtain ⟨tail, rfl, inside⟩ | ⟨tail, rfl, outside⟩ := List.append_eq_append_iff.mp ahead
  · cases tail with
    | nil => simpa using each
    | cons head tail =>
        have first : head = stop := by simpa [inside] using found
        rw [← first, unmarked head (by simp)] at ended
        cases ended
  · cases tail with
    | nil => simpa using each
    | cons head tail =>
        have last : last = head := by simpa using congrArg List.head? outside
        rw [last, ends head (by simp)] at marked
        cases marked

end TokenStream

variable {env : Environment} {stream : TokenStream} {site : Site} {start stop : Nat}
  {bindings : List Binding}

namespace Derives

section Sequence

variable {member : Tree} {members : List Tree}

theorem sequence_nil_iff : Derives env stream site (.sequence []) start (.success stop bindings) ↔
    stop = start ∧ bindings = [] := by
  constructor
  · rintro ⟨⟩
    exact ⟨rfl, rfl⟩
  · rintro ⟨rfl, rfl⟩
    exact .sequenceEnd

theorem sequence_cons_iff :
    Derives env stream site (.sequence (member :: members)) start (.success stop bindings) ↔
      ∃ middle first later, Derives env stream site member start (.success middle first) ∧
        Derives env stream (site.after member) (.sequence members) middle (.success stop later) ∧
        bindings = first ++ later := by
  constructor
  · intro derived
    generalize whole : Verdict.success stop bindings = verdict at derived
    cases derived with
    | sequenceStep first rest =>
        obtain ⟨later, rfl, joined⟩ := Verdict.success_of_prepend whole.symm
        exact ⟨_, _, later, first, rest, joined.symm⟩
    | sequenceFails first => cases whole
  · rintro ⟨middle, first, later, front, back, rfl⟩
    exact .sequenceStep front back

end Sequence

section Alternation

variable {branch : Tree} {branches : List Tree}

theorem not_alternation_nil :
    ¬ Derives env stream site (.alternation []) start (.success stop bindings) := by
  rintro ⟨⟩

theorem alternation_cons_iff :
    Derives env stream site (.alternation (branch :: branches)) start (.success stop bindings) ↔
      Derives env stream site branch start (.success stop bindings) ∨
        (Derives env stream site branch start .failure ∧
          Derives env stream (site.after branch) (.alternation branches) start
            (.success stop bindings)) := by
  constructor
  · intro derived
    cases derived with
    | choiceTakes first => exact .inl first
    | choiceSkips first rest => exact .inr ⟨first, rest⟩
  · rintro (first | ⟨first, rest⟩)
    · exact .choiceTakes first
    · exact .choiceSkips first rest

end Alternation

section Leaf

variable {leaf : Leaf} {field : Field}

theorem leaf_iff : Derives env stream site (.leaf leaf) start (.success stop bindings) ↔
    ∃ token, stream.token? start = some token ∧ token.isEnd = false ∧ leaf.accepts token = true ∧
      leaf.bind token = .ok bindings ∧ stop = start + 1 := by
  constructor
  · intro derived
    cases derived with
    | leafTakes current unmarked accepted coerced =>
        exact ⟨_, current, unmarked, accepted, coerced, rfl⟩
  · rintro ⟨token, current, unmarked, accepted, coerced, rfl⟩
    exact .leafTakes current unmarked accepted coerced

theorem leaf_fails (strange : ∀ token, stream.token? start = some token → token.isEnd = false →
    leaf.accepts token = false) : Derives env stream site (.leaf leaf) start .failure := by
  refine .leafRefuses fun token bindings here unmarked accepted => ?_
  simp [strange token here unmarked] at accepted

theorem captureKind_fails {kind : Option TokenKind} {name : String}
    (other : ∀ token, stream.token? start = some token → token.isEnd = false → token.kind ≠ kind) :
    Derives env stream site (.leaf (.captureKind kind name field)) start .failure := by
  refine leaf_fails fun token here unmarked => ?_
  simpa [Leaf.accepts] using other token here unmarked

/-- A leaf that captures a token assigns what the text of the token becomes. -/
theorem capture_iff {suits : Token → Prop}
    (accepts : ∀ token, leaf.accepts token = true ↔ suits token) (binds : ∀ token, leaf.bind token =
      (field.kind.coerce token.text token.kind).map fun value => [.assign field.name value]) :
    Derives env stream site (.leaf leaf) start (.success stop bindings) ↔
      ∃ token value, stream.token? start = some token ∧ token.isEnd = false ∧ suits token ∧
        field.kind.coerce token.text token.kind = .ok value ∧ stop = start + 1 ∧
        bindings = [.assign field.name value] := by
  rw [leaf_iff]
  constructor
  · rintro ⟨token, here, unmarked, accepted, coerced, rfl⟩
    rw [binds] at coerced
    cases made : field.kind.coerce token.text token.kind with
    | error error => simp [made, Except.map] at coerced
    | ok value =>
        simp only [made, Except.map, Except.ok.injEq] at coerced
        exact ⟨token, value, here, unmarked, (accepts token).mp accepted, made, rfl, coerced.symm⟩
  · rintro ⟨token, value, here, unmarked, suited, made, rfl, rfl⟩
    exact ⟨token, here, unmarked, (accepts token).mpr suited, by rw [binds, made]; rfl, rfl⟩

theorem captureKind_iff {kind : Option TokenKind} {name : String} :
    Derives env stream site (.leaf (.captureKind kind name field)) start (.success stop bindings) ↔
      ∃ token value, stream.token? start = some token ∧ token.isEnd = false ∧ token.kind = kind ∧
        field.kind.coerce token.text token.kind = .ok value ∧ stop = start + 1 ∧
        bindings = [.assign field.name value] :=
  capture_iff (fun _ => by simp [Leaf.accepts]) fun _ => rfl

theorem literal_iff {text : String} :
    Derives env stream site (.leaf (.literal text field)) start (.success stop bindings) ↔
      ∃ token, stream.token? start = some token ∧ token.isEnd = false ∧
      token.text = .ofString text ∧
        stop = start + 1 ∧ bindings = if field.kind =
          .boolean then [.assign field.name (.bool true)] else [] := by
  rw [leaf_iff]
  simp only [Leaf.accepts, Leaf.bind, beq_iff_eq, Except.ok.injEq]
  constructor
  · rintro ⟨token, here, unmarked, accepted, rfl, rfl⟩
    exact ⟨token, here, unmarked, accepted, rfl, rfl⟩
  · rintro ⟨token, here, unmarked, accepted, rfl, rfl⟩
    exact ⟨token, here, unmarked, accepted, rfl, rfl⟩

theorem literal_fails {text : String}
    (other : ∀ token, stream.token? start = some token → token.isEnd = false →
      token.text ≠ .ofString text) :
    Derives env stream site (.leaf (.literal text field)) start .failure := by
  refine leaf_fails fun token here unmarked => ?_
  simpa [Leaf.accepts] using other token here unmarked

theorem captureLiteral_fails {text : String}
    (other : ∀ token, stream.token? start = some token → token.isEnd = false →
      token.text ≠ .ofString text) :
    Derives env stream site (.leaf (.captureLiteral text field)) start .failure := by
  refine leaf_fails fun token here unmarked => ?_
  simpa [Leaf.accepts] using other token here unmarked

theorem captureLiteral_iff {text : String} :
    Derives env stream site (.leaf (.captureLiteral text field)) start (.success stop bindings) ↔
      ∃ token value, stream.token? start = some token ∧ token.isEnd = false ∧
      token.text = .ofString text ∧
        field.kind.coerce token.text token.kind = .ok value ∧ stop = start + 1 ∧
        bindings = [.assign field.name value] :=
  capture_iff (fun _ => by simp [Leaf.accepts]) fun _ => rfl

end Leaf

theorem reference_iff {target : ShapeRef} {field : Field} {shape : ShapeId} {root : Tree}
    {blank : Value} (resolved : env.resolve site target = .ok shape)
    (built : env.root shape = .ok root) (made : env.fresh shape = .ok blank) :
    Derives env stream site (.reference target field) start (.success stop bindings) ↔
      ∃ inside item, Derives env stream ⟨some shape, 0⟩ root start (.success stop inside) ∧
        env.fill inside blank = .ok item ∧ bindings = [field.holding item] := by
  constructor
  · intro derived
    cases derived with
    | referenceTakes found resolvedToo builtToo nested madeToo filled =>
        cases resolved.symm.trans resolvedToo
        cases built.symm.trans builtToo
        cases made.symm.trans madeToo
        exact ⟨_, _, nested, filled, rfl⟩
  · rintro ⟨inside, item, nested, filled, rfl⟩
    exact .referenceTakes shape resolved built nested made filled

end Derives

section Turns

variable {α : Type} {fits : α → Token → Prop} {inner : Tree} {Item : Type} {marks : Item → List α}

/-- A group whose turns can each be told from their tokens has as many turns as there are items
spelled. What a turn comes to may hang on what follows it: the next item, or whatever ends the
group. -/
theorem Derives.repetition_of_items {binds : Item → List Binding} {items : List Item}
    (follow : Nat → Prop) (some : ∀ item ∈ items, marks item ≠ [])
    (turn : ∀ item ∈ items, ∀ place, stream.Spells fits place (marks item) →
      follow (place + (marks item).length) →
      Derives env stream site inner place
        (.success (place + (marks item).length) (binds item)))
    (begins : ∀ item ∈ items, ∀ place, stream.Spells fits place (marks item) → follow place)
    (spells : stream.Spells fits start (items.flatMap marks))
    (ended : Derives env stream site inner (start + (items.flatMap marks).length) .failure)
    (last : follow (start + (items.flatMap marks).length)) :
    Derives env stream site (.repetition inner .optionalOrMore) start
      (.success (start + (items.flatMap marks).length) (items.flatMap binds)) := by
  have turns (taken : Nat) :
      Iterates env stream site inner .optionalOrMore taken start (taken + items.length)
      (start + (items.flatMap marks).length) (items.flatMap binds) := by
    induction items generalizing start taken with
    | nil => exact .fails rfl ended
    | cons item rest ih =>
        simp only [List.flatMap_cons, TokenStream.spells_append, List.length_append,
          ← Nat.add_assoc] at spells ended last ⊢
        have moved : start + (marks item).length ≠ start := by
          have long := List.length_pos_iff.mpr (some item (by simp))
          omega
        have follows : follow (start + (marks item).length) := by
          cases rest with
          | nil => simpa using last
          | cons next rest =>
              exact begins next (by simp) _ (TokenStream.spells_append.mp spells.2).1
        have further := ih (fun other held => some other (by simp [held]))
          (fun other held => turn other (by simp [held]))
          (fun other held => begins other (by simp [held]))
          spells.2 ended last (taken + 1)
        rw [List.length_cons, Nat.add_comm rest.length, ← Nat.add_assoc]
        exact .advances rfl (turn item (by simp) start spells.1 follows) moved further
  exact .turnsEnough (turns 0) (Nat.zero_le _)

/-- What the turns of a group spell, if each of them spells an item. -/
theorem Iterates.items {bound : Bound} {taken start total stop : Nat} {bindings : List Binding}
    {binds : Item → List Binding} {good : Item → Prop}
    (turn : ∀ place middle found, start ≤ place →
      Derives env stream site inner place (.success middle found) →
      ∃ item, good item ∧ stream.Spells fits place (marks item) ∧
        middle = place + (marks item).length ∧ found = binds item)
    (iterates : Iterates env stream site inner bound taken start total stop bindings) :
    ∃ items : List Item, (∀ item ∈ items, good item) ∧
      stream.Spells fits start (items.flatMap marks) ∧ stop = start + (items.flatMap marks).length ∧
      bindings = items.flatMap binds := by
  -- The turns that are left become fewer.
  generalize left : total - taken = turns
  induction turns using Nat.strongRecOn generalizing taken start stop bindings with
  | ind turns ih =>
      cases iterates with
      | full => exact ⟨[], by simp, trivial, rfl, rfl⟩
      | fails => exact ⟨[], by simp, trivial, rfl, rfl⟩
      | idles allowed derived =>
          obtain ⟨item, right, spells, stays, rfl⟩ := turn _ _ _ (Nat.le_refl _) derived
          exact ⟨[item], by simpa using right, by simpa using spells, by simpa using stays, by simp⟩
      | advances allowed derived moved rest =>
          have counted := rest.taken_le
          obtain ⟨item, right, spells, there, binds⟩ := turn _ _ _ (Nat.le_refl _) derived
          obtain ⟨items, each, spellsLater, stops, joined⟩ := ih _ (by omega)
            (fun place middle found further => turn place middle found (by omega)) rest rfl
          subst there stops binds joined
          refine ⟨item :: items, List.forall_mem_cons.mpr ⟨right, each⟩, ?_, ?_, rfl⟩
          · simpa using ⟨spells, spellsLater⟩
          · simp [Nat.add_assoc]

theorem Derives.items_of_repetition {bound : Bound} {binds : Item → List Binding}
    {good : Item → Prop} (turn : ∀ place middle found, start ≤ place →
      Derives env stream site inner place (.success middle found) →
      ∃ item, good item ∧ stream.Spells fits place (marks item) ∧
        middle = place + (marks item).length ∧ found = binds item)
    (derived : Derives env stream site (.repetition inner bound) start (.success stop bindings)) :
    ∃ items : List Item, (∀ item ∈ items, good item) ∧
      stream.Spells fits start (items.flatMap marks) ∧ stop = start + (items.flatMap marks).length ∧
      bindings = items.flatMap binds := by
  cases derived with
  | turnsEnough turns => exact turns.items turn

end Turns

/-- Wherever a tree is matched, it comes to something. -/
def Decided (env : Environment) (stream : TokenStream) (site : Site) (tree : Tree) : Prop :=
  ∀ start ≤ stream.size, ∃ verdict, Derives env stream site tree start verdict

namespace Decided

variable {inner : Tree}

theorem leaf (leaf : Leaf) : Decided env stream site (.leaf leaf) := by
  intro start _
  by_cases takes : ∃ token bindings, stream.token? start = some token ∧ token.isEnd = false ∧
      leaf.accepts token = true ∧ leaf.bind token = .ok bindings
  · obtain ⟨token, bindings, here, unmarked, accepted, coerced⟩ := takes
    exact ⟨_, .leafTakes here unmarked accepted coerced⟩
  · refine ⟨_, .leafRefuses fun token bindings here unmarked accepted coerced => ?_⟩
    exact takes ⟨token, bindings, here, unmarked, accepted, coerced⟩

theorem sequence {members : List Tree}
    (each : ∀ place : Site, place.owner = site.owner →
      ∀ member ∈ members, Decided env stream place member) :
    Decided env stream site (.sequence members) := by
  intro start within
  induction members generalizing site start with
  | nil => exact ⟨_, .sequenceEnd⟩
  | cons member rest ih =>
      obtain ⟨verdict, first⟩ := each site rfl member (by simp) start within
      cases verdict with
      | failure => exact ⟨_, .sequenceFails first⟩
      | success middle bindings =>
          obtain ⟨verdict, later⟩ := @ih (site.after member)
            (fun place owned other held => each place owned other (by simp [held]))
            middle ((first.passes within).le_size within)
          exact ⟨_, .sequenceStep first later⟩

theorem alternation {branches : List Tree}
    (each : ∀ place : Site, place.owner = site.owner →
      ∀ branch ∈ branches, Decided env stream place branch) :
    Decided env stream site (.alternation branches) := by
  intro start within
  induction branches generalizing site with
  | nil => exact ⟨_, .choiceEnd⟩
  | cons branch rest ih =>
      obtain ⟨verdict, first⟩ := each site rfl branch (by simp) start within
      cases verdict with
      | success stop bindings => exact ⟨_, .choiceTakes first⟩
      | failure =>
          obtain ⟨verdict, later⟩ := @ih (site.after branch)
            fun place owned other held => each place owned other (by simp [held])
          exact ⟨_, .choiceSkips first later⟩

theorem repetition {bound : Bound} (decided : Decided env stream site inner) :
    Decided env stream site (.repetition inner bound) := by
  have turns (taken start : Nat) (within : start ≤ stream.size) :
      ∃ total stop bindings,
        Iterates env stream site inner bound taken start total stop bindings := by
    generalize bounded : stream.size - start = left
    induction left using Nat.strongRecOn generalizing taken start with
    | ind left ih =>
        cases allowed : bound.allows taken with
        | false => exact ⟨taken, start, [], .full allowed⟩
        | true =>
            obtain ⟨verdict, turn⟩ := decided start within
            cases verdict with
            | failure => exact ⟨taken, start, [], .fails allowed turn⟩
            | success middle bindings =>
                by_cases moved : middle = start
                · subst moved
                  exact ⟨taken + 1, middle, bindings, .idles allowed turn⟩
                · have passed := turn.passes within
                  have inside := passed.le_size within
                  have ordered := passed.ordered
                  obtain ⟨total, stop, later, rest⟩ :=
                    ih (stream.size - middle) (by omega) (taken + 1) middle inside rfl
                  exact ⟨total, stop, bindings ++ later, .advances allowed turn moved rest⟩
  intro start within
  obtain ⟨total, stop, bindings, iterates⟩ := turns 0 start within
  by_cases enough : bound.least ≤ total
  · exact ⟨_, .turnsEnough iterates enough⟩
  · exact ⟨_, .turnsTooFew iterates (Nat.lt_of_not_le enough)⟩

theorem reference {target : ShapeRef} {field : Field} {shape : ShapeId} {root : Tree}
    {blank : Value} (resolved : env.resolve site target = .ok shape)
    (built : env.root shape = .ok root) (made : env.fresh shape = .ok blank)
    (decided : Decided env stream ⟨some shape, 0⟩ root) (filled : ∀ start stop bindings,
      Derives env stream ⟨some shape, 0⟩ root start (.success stop bindings) →
        ∃ item, env.fill bindings blank = .ok item) :
    Decided env stream site (.reference target field) := by
  intro start within
  obtain ⟨verdict, nested⟩ := decided start within
  cases verdict with
  | failure => exact ⟨_, .referenceFails shape resolved built nested⟩
  | success stop bindings =>
      obtain ⟨item, applied⟩ := filled start stop bindings nested
      exact ⟨_, .referenceTakes shape resolved built nested made applied⟩

end Decided

end RecordGrammar
