import RecordGrammar.Proofs.Parse.Independence
import RecordGrammar.Proofs.Parse.Lookahead
import RecordGrammar.Proofs.Scanner.Tables
import RecordGrammar.Proofs.Match.Verdicts

namespace RecordGrammar

open RecordGrammar.Source (SourceText)

/-! What a parse comes to is decided by what can be derived for the tree of its shape. -/

theorem Token.forall₂_face_iff {α : Type} {face : α → Face} {wanted : List α}
    {tokens : List Token} :
    List.Forall₂ (fun item token => token.face = face item) wanted tokens ↔
      tokens.map Token.face = wanted.map face := by
  rw [eq_comm, ← List.forall₂_eq_eq_eq, List.forall₂_map_right_iff, List.forall₂_map_left_iff]
  exact ⟨List.Forall₂.imp fun _ _ => Eq.symm, List.Forall₂.imp fun _ _ => Eq.symm⟩

namespace Registry

variable {registry : Registry} {parser : Parser} {source : SourceText} {stream : TokenStream}
  {root : Tree} {blank value : Value}

/-- What is read from the tokens of a text by a registry that has not been used is what a parse
comes to. -/
theorem parse_eq_read (pending : registry.EachShape fun shape => shape.phase = .pending)
    (distinct : (registry.kindsFor parser).Distinct)
    (streamed : streamOf (registry.scanFor parser source) = .ok stream)
    (built : (registry.environment (registry.kindsFor parser)).root parser.shape = .ok root) :
    (registry.parse parser source).result =
      (registry.read parser source (registry.kindsFor parser) stream).1 := by
  have untouched := Retains.refl pending (registry.kindsFor parser)
  have told := (untouched.parse pending (.refl _) distinct source).2
  have rooted := environment_root_ok built
  rw [(untouched.shape parser.shape).rootWith_eq (.refl _) distinct] at rooted
  cases made : (registry.shape parser.shape).ruleTree parser.shape (registry.kindsFor parser) with
  | error error => simp [made, Except.mapError] at rooted
  | ok tree =>
      simp only [outcomeOf, made, streamed] at told
      exact congrArg Prod.fst told

/-- A tree is matched up to the end of the text, and a new record takes what it binds. -/
def Derived (env : Environment) (stream : TokenStream) (shape : ShapeId) (root : Tree)
    (blank value : Value) : Prop :=
  ∃ stop token bindings, Derives env stream ⟨some shape, 0⟩ root 0 (.success stop bindings) ∧
    stream.token? stop = some token ∧ token.isEnd = true ∧
    Binding.applyAll bindings blank = .ok value

section Read

variable {kinds : KindTable}

theorem attempt_eq_finish_of_derives {env : Environment} {weight : Nat} (weighs : env.Weighs weight)
    {site : Site} {verdict : Verdict} (derived : Derives env stream site root 0 verdict)
    (complete : Bool) :
    ∃ outcome, root.attempt env weight stream complete site {} =
      Tree.finish stream complete outcome ∧ outcome.verdict? = some verdict :=
  ⟨_, Tree.attempt_eq_finish_outcome weighs stream complete site root (Nat.zero_le _),
    Tree.verdict?_outcome derived {} rfl (Nat.zero_le _)⟩

theorem read_ok_iff (complete : parser.complete = true)
    (built : (registry.environment kinds).root parser.shape = .ok root)
    (made : (registry.environment kinds).fresh parser.shape = .ok blank) :
    (registry.read parser source kinds stream).1 = .ok value ↔
      Derived (registry.environment kinds) stream parser.shape root blank value := by
  constructor
  · intro succeeded
    obtain ⟨_, bindings, next, _, builtToo, attempted, madeToo, applied⟩ := read_ok succeeded
    cases built.symm.trans builtToo
    cases made.symm.trans madeToo
    have ran := Tree.run_of_attempt attempted
    have derived : Derives _ stream _ root 0 (.success next.index bindings) :=
      Tree.run_sound _ stream _ (Nat.zero_le _) (by rw [ran]; rfl)
    have inside := (derived.passes (Nat.zero_le _)).lt_size stream.size_pos
    rw [Tree.attempt_eq_finish, ran, Tree.finish] at attempted
    split at attempted
    · cases attempted
    · rename_i done
      have found : stream.token? next.index = some _ := Array.getElem?_eq_getElem inside
      have ended : next.cursor.atEnd stream = true := by simpa [complete] using done
      simp only [Cursor.atEnd, Cursor.current?,
        show stream.token? next.cursor.index = _ from found] at ended
      exact ⟨next.index, _, bindings, derived, found, ended, applied⟩
  · rintro ⟨stop, token, bindings, derived, found, marked, applied⟩
    obtain ⟨outcome, attempted, verdict⟩ :=
      attempt_eq_finish_of_derives (registry.environment_weighs kinds) derived parser.complete
    obtain ⟨next, rfl, rfl⟩ := Outcome.matched_of_verdict? verdict
    have ended : next.cursor.atEnd stream = true := by
      simp only [Cursor.atEnd, Cursor.current?,
        show stream.token? next.cursor.index = _ from found, marked]
    have filled : (registry.environment kinds).fill bindings blank = .ok value := applied
    simp only [read, built, attempted, Tree.finish, ended, Bool.not_true, Bool.and_false,
      Bool.false_eq_true, if_false, conclude, made, filled, Except.mapError]

end Read

/-- The tokens of a text that a scanner goes through to the end, as a stream: one at the end, and
before it what the rules of the table made. -/
structure Streamed (scanner : Scanner) (text : List Char) (stream : TokenStream)
    (tokens : List Token) (last : Token) :
    Prop where
  streamed : streamOf (scanner.scan text) = .ok stream
  listed : stream.tokens.toList = tokens ++ [last]
  whole : (scanner.scan text).tokens = tokens ++ [last]
  recognizes : Scanner.Recognizes scanner.rules tokens last
  unmarked : ∀ token ∈ tokens, token.isEnd = false

namespace Streamed

variable {scanner : Scanner} {text : List Char} {tokens : List Token} {last : Token}

theorem marked (streamed : Streamed scanner text stream tokens last) : last.isEnd = true := by
  have kind : last.kind = some .endOfText := congrArg Prod.fst streamed.recognizes.ended
  simp [Token.isEnd, kind]

theorem mem (streamed : Streamed scanner text stream tokens last) {place : Nat} {token : Token}
    (found : stream.token? place = some token) : token ∈ tokens ++ [last] := by
  rw [TokenStream.token?, ← Array.getElem?_toList, streamed.listed] at found
  exact List.mem_of_getElem? found

theorem recognized (streamed : Streamed scanner text stream tokens last) {place : Nat}
    {token : Token} (found : stream.token? place = some token) (unmarked : token.isEnd = false) :
    ScanRule.Recognized scanner.rules token := by
  rcases List.mem_append.mp (streamed.mem found) with held | ended
  · exact streamed.recognizes.each token held
  · rw [List.mem_singleton.mp ended, streamed.marked] at unmarked
    cases unmarked

/-- What is spelled up to the end is spelled by all tokens but the last. -/
theorem spells_iff {α : Type} {fits : α → Token → Prop} {wanted : List α}
    (streamed : Streamed scanner text stream tokens last) :
    (stream.Spells fits 0 wanted ∧ ∃ stop, stream.token? wanted.length = some stop ∧
      stop.isEnd = true) ↔ List.Forall₂ fits wanted tokens := by
  constructor
  · rintro ⟨spells, stop, found, ended⟩
    exact spells.whole streamed.listed streamed.unmarked streamed.marked found ended
  · intro each
    refine ⟨TokenStream.spells_iff.mpr
      ⟨tokens, ⟨[last], streamed.listed.symm⟩, each, streamed.unmarked⟩, last, ?_, streamed.marked⟩
    rw [TokenStream.token?, ← Array.getElem?_toList, streamed.listed, each.length_eq]
    simp

/-- Tokens are what is wanted just if the faces of a scan are those of what is wanted, and the
end. -/
theorem shows_iff {α : Type} {face : α → Face} {wanted : List α}
    (streamed : Streamed scanner text stream tokens last) :
    List.Forall₂ (fun item token => token.face = face item) wanted tokens ↔
      (scanner.scan text).tokens.map Token.face = wanted.map face ++ [.finish] := by
  rw [Token.forall₂_face_iff, streamed.whole, List.map_append, List.map_singleton,
    streamed.recognizes.ended]
  exact ⟨fun same => by rw [same], List.append_cancel_right⟩

end Streamed

/-- The tokens of a scan by a table make a stream unless the scan gets stuck. -/
theorem exists_streamed {scanner : Scanner} (byTable : scanner.ByTable) {text : List Char}
    (clean : (scanner.scan text).error = none) :
    ∃ stream tokens last, Streamed scanner text stream tokens last := by
  obtain ⟨tokens, last, whole, recognizes⟩ := byTable.scan_recognized clean
  have marked : last.isEnd = true := by
    have kind : last.kind = some .endOfText := congrArg Prod.fst recognizes.ended
    simp [Token.isEnd, kind]
  have back : (tokens ++ [last]).toArray.back? = some last := by simp
  have listed : TokenStream.ofList? (tokens ++ [last]) =
      some ⟨(tokens ++ [last]).toArray, last, back, marked⟩ := by
    unfold TokenStream.ofList?
    split
    · rename_i none
      rw [back] at none
      cases none
    · rename_i token found
      cases back.symm.trans found
      simp [marked]
  have streamed :
      streamOf (scanner.scan text) = .ok ⟨(tokens ++ [last]).toArray, last, back, marked⟩ := by
    simp only [streamOf, clean, whole, listed]
  exact ⟨_, tokens, last, streamed, rfl, whole, recognizes,
    fun token held => (recognizes.each token held).isEnd byTable.unmarking⟩

theorem scanFor_eq (registry : Registry) (parser : Parser) (source : SourceText) :
    registry.scanFor parser source =
      ((registry.scannerFor parser).1.scanner (registry.scannerFor parser).2).scan source.content :=
  rfl

section Whole

variable {kinds : KindTable} {scan : Scanner.Scan}

/-- A parse of a whole text gives a record just where the record can be derived. -/
theorem parse_ok_iff (pending : registry.EachShape fun shape => shape.phase = .pending)
    (named : registry.kindsFor parser = kinds) (distinct : kinds.Distinct)
    (scans : registry.scanFor parser source = scan) (streamed : streamOf scan = .ok stream)
    (complete : parser.complete = true)
    (built : (registry.environment kinds).root parser.shape = .ok root)
    (made : (registry.environment kinds).fresh parser.shape = .ok blank) :
    (registry.parse parser source).result = .ok value ↔
      Derived (registry.environment kinds) stream parser.shape root blank value := by
  subst named scans
  rw [parse_eq_read pending distinct streamed built]
  exact read_ok_iff complete built made

end Whole

section OfGrammar

variable {name : String} {scanner : Scanner} {shapes : List Shape}

theorem EachShape.ofGrammar {holds : Shape → Prop} (none : holds { name := "" })
    (each : ∀ shape ∈ shapes, holds { shape with grammar := some 0 }) :
    (Registry.ofGrammar name scanner shapes).EachShape holds := by
  intro id
  simp only [Registry.shape, Registry.ofGrammar, List.getElem?_map]
  cases found : shapes[id]? with
  | none => exact none
  | some shape => exact each shape (List.mem_of_getElem? found)

/-- A grammar of shapes that have not been compiled has not been used. -/
theorem pending_ofGrammar (each : ∀ shape ∈ shapes, shape.phase = .pending) :
    (Registry.ofGrammar name scanner shapes).EachShape fun shape => shape.phase = .pending :=
  EachShape.ofGrammar rfl each

end OfGrammar

end Registry

end RecordGrammar
