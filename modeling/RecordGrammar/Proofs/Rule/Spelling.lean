import RecordGrammar.Proofs.Text.Classes
import RecordGrammar.Rule.Token

namespace RecordGrammar

open RecordGrammar.Text

/-! How rules are spelled: the words of a rule apart from where they stand, the characters that each
of them may be written with, and that the tokens of a rule are the words that it spells.
-/

/-- A token of a rule without its place. -/
structure RuleWord where
  kind : RuleTokenKind
  text : String
deriving DecidableEq, Repr

namespace RuleWord

def literal (text : String) : RuleWord := ⟨.literal, text⟩

def mark (text : String) : RuleWord := ⟨.operator, text⟩

def name (text : String) : RuleWord := ⟨.identifier, text⟩

def bar : RuleWord := ⟨.branch, "|"⟩

/-- The token of a word that stands at an offset of a field's rule. -/
def token (field : Field) (ordinal offset : Nat) (word : RuleWord) : RuleToken where
  text := word.text
  kind := word.kind
  offset := offset
  field := field
  ordinal := ordinal

/-- The body of a literal: a backslash may stand before any character, and must stand before the
quote and the backslash. -/
inductive Escapes (delimiter : Char) : List Char → List Char → Prop
  | nil : Escapes delimiter [] []
  | plain (inside : c ≠ delimiter) (unescaped : c ≠ '\\') (rest : Escapes delimiter letters body) :
      Escapes delimiter (c :: letters) (c :: body)
  | escaped (rest : Escapes delimiter letters body) :
      Escapes delimiter (c :: letters) ('\\' :: c :: body)

/-- The characters that a word is written with. -/
inductive Spells : RuleWord → List Char → Prop
  | bar : Spells .bar ['|']
  | mark (member : c ∈ ['(', ')', '+', '?', '*', '@']) : Spells (.mark (String.ofList [c])) [c]
  | literal (quotes : delimiter = '\'' ∨ delimiter = '"')
      (escapes : Escapes delimiter letters body) :
      Spells (.literal (String.ofList letters)) (delimiter :: (body ++ [delimiter]))
  | name (starts : startsPlainWord c = true)
      (continues : ∀ part ∈ rest, continuesPlainWord part = true) :
      Spells (.name (String.ofList (c :: rest))) (c :: rest)

/-- Whether a word ends where the given characters begin: a name takes all that it can. -/
def EndsBefore (word : RuleWord) (rest : List Char) : Prop :=
  word.kind = .identifier → ∀ next ∈ rest.head?, continuesPlainWord next = false

/-- The characters of a rule that consists of the given words, with white space between them. -/
inductive Writes : List RuleWord → List Char → Prop
  | nil : Writes [] []
  | blank (skipped : isBlank c = true) (rest : Writes words chars) : Writes words (c :: chars)
  | word (spelled : Spells word spelling) (ends : word.EndsBefore chars)
      (rest : Writes words chars) :
      Writes (word :: words) (spelling ++ chars)

end RuleWord

/-- The word of a token. -/
def RuleToken.word (token : RuleToken) : RuleWord := ⟨token.kind, token.text⟩

/-- The tokens of some words that stand in the rule of one field. -/
structure RuleToken.Placed (field : Field) (ordinal : Nat) (words : List RuleWord)
    (tokens : List RuleToken) : Prop where
  spelled : tokens.map RuleToken.word = words
  owned : ∀ token ∈ tokens, token.field = field ∧ token.ordinal = ordinal

namespace RuleToken.Placed

variable {field : Field} {ordinal : Nat} {word : RuleWord} {words later : List RuleWord}
  {tokens : List RuleToken}

theorem nil (placed : Placed field ordinal [] tokens) : tokens = [] :=
  List.map_eq_nil_iff.mp placed.spelled

theorem cons (placed : Placed field ordinal (word :: words) tokens) :
    ∃ token rest, tokens = token :: rest ∧ token.word = word ∧ token.field = field ∧
      token.ordinal = ordinal ∧ Placed field ordinal words rest := by
  obtain ⟨token, rest, rfl, same, spelled⟩ := List.map_eq_cons_iff.mp placed.spelled
  obtain ⟨field, ordinal⟩ := placed.owned token (by simp)
  exact ⟨token, rest, rfl, same, field, ordinal, spelled,
    fun other member => placed.owned other (List.mem_cons_of_mem token member)⟩

theorem append (placed : Placed field ordinal (words ++ later) tokens) :
    ∃ first rest, tokens = first ++ rest ∧ Placed field ordinal words first ∧
      Placed field ordinal later rest := by
  obtain ⟨first, rest, rfl, spelled, spelledLater⟩ := List.map_eq_append_iff.mp placed.spelled
  refine ⟨first, rest, rfl, ⟨spelled, ?_⟩, ⟨spelledLater, ?_⟩⟩
  · exact fun token member => placed.owned token (List.mem_append_left rest member)
  · exact fun token member => placed.owned token (List.mem_append_right first member)

end RuleToken.Placed

section Lexing

open RuleToken RuleWord

variable {field : Field} {ordinal fuel offset : Nat} {word : RuleWord} {spelling rest : List Char}

theorem literalText?_plain {delimiter c : Char} (inside : c ≠ delimiter) (unescaped : c ≠ '\\') :
    literalText? delimiter (c :: rest) =
      (literalText? delimiter rest).map fun (letters, width) => (c :: letters, width + 1) := by
  rw [literalText?.eq_def]
  simp only [beq_eq_false_iff_ne.mpr inside, beq_eq_false_iff_ne.mpr unescaped,
    Bool.false_eq_true, if_false]

theorem literalText?_escaped {delimiter c : Char} (unescaped : delimiter ≠ '\\') :
    literalText? delimiter ('\\' :: c :: rest) =
      (literalText? delimiter rest).map fun (letters, width) => (c :: letters, width + 2) := by
  rw [literalText?.eq_def]
  simp only [beq_eq_false_iff_ne.mpr unescaped.symm, Bool.false_eq_true, if_false,
    beq_self_eq_true, if_true]

theorem literalText?_escapes {delimiter : Char} (unescaped : delimiter ≠ '\\')
    (escapes : Escapes delimiter letters body) (rest : List Char) :
    literalText? delimiter (body ++ delimiter :: rest) = some (letters, body.length + 1) := by
  induction escapes with
  | nil =>
      rw [List.nil_append, literalText?.eq_def]
      simp only [beq_self_eq_true, if_true, List.length_nil]
  | plain inside notEscape escapes ih =>
      rw [List.cons_append, literalText?_plain inside notEscape, ih]
      rfl
  | escaped escapes ih =>
      rw [List.cons_append, List.cons_append, literalText?_escaped unescaped, ih]
      rfl

theorem takeWhile_continues (continues : ∀ part ∈ parts, continuesPlainWord part = true)
    (ends : ∀ next ∈ rest.head?, continuesPlainWord next = false) :
    (parts ++ rest).takeWhile continuesPlainWord = parts := by
  rw [List.takeWhile_append_of_pos continues]
  cases rest with
  | nil => simp
  | cons next rest => simp [ends next rfl]

theorem lexFrom_blank {c : Char} (skipped : isBlank c = true) :
    lexFrom field ordinal (fuel + 1) offset (c :: rest) =
      lexFrom field ordinal fuel (offset + 1) rest := by
  simp only [lexFrom, skipped, if_true]

/-- A quote opens a literal, or is complained about. -/
theorem lexFrom_quote {mark : Char} (quotes : mark = '\'' ∨ mark = '"') :
    lexFrom field ordinal (fuel + 1) offset (mark :: rest) = match literalText? mark rest with
      | some (letters, width) =>
          (lexFrom field ordinal fuel (offset + (width + 1)) (rest.drop width)).map
            ({ text := String.ofList letters, kind := .literal, offset, field, ordinal } :: ·)
      | none =>
          .error { problem := .missingQuote mark, rule := field.rule, field := field.name,
                   offset := some offset } := by
  have classes : isBlank mark = false ∧ (mark == '|') = false ∧ marks.contains mark = false ∧
      (mark == '\'' || mark == '"') = true := by
    rcases quotes with same | same <;> subst same <;> decide
  obtain ⟨solid, bar, other, opens⟩ := classes
  simp only [lexFrom, solid, bar, other, opens, Bool.false_eq_true, if_false, if_true]
  cases literalText? mark rest with
  | none => rfl
  | some part =>
      simp only [Nat.add_sub_cancel]
      exact bind_pure_comp _ _

/-- One word is taken at a time. -/
theorem lexFrom_word (spelled : Spells word spelling) (ends : word.EndsBefore rest) :
    lexFrom field ordinal (fuel + 1) offset (spelling ++ rest) =
      (lexFrom field ordinal fuel (offset + spelling.length) rest).map
        (word.token field ordinal offset :: ·) := by
  cases spelled with
  | bar => rfl
  | mark member =>
      simp only [List.mem_cons, List.not_mem_nil, or_false] at member
      rcases member with rfl | rfl | rfl | rfl | rfl | rfl <;> rfl
  | @literal delimiter letters body quotes escapes =>
      have text := literalText?_escapes (ne_of_quote quotes (by decide)) escapes rest
      have shape : delimiter :: (body ++ [delimiter]) ++ rest =
          delimiter :: (body ++ delimiter :: rest) := by
        simp
      have remaining : (body ++ delimiter :: rest).drop (body.length + 1) = rest := by
        rw [List.drop_length_add_append, List.drop_one, List.tail_cons]
      have width : (delimiter :: (body ++ [delimiter])).length = body.length + 1 + 1 := by simp
      rw [shape, lexFrom_quote quotes, width]
      simp only [text, remaining]
      rfl
  | @name c parts starts continues =>
      have taken := takeWhile_continues continues (ends rfl)
      have skipped := isBlank_of_startsPlainWord starts
      have bar : (c == '|') = false := beq_eq_false_iff_ne.mpr (ne_of_startsPlainWord starts rfl)
      have mark : marks.contains c = false := by
        rw [List.contains_eq_mem, decide_eq_false_iff_not]
        intro member
        simp only [marks, List.mem_cons, List.not_mem_nil, or_false] at member
        rcases member with rfl | rfl | rfl | rfl | rfl | rfl <;> cases starts
      have opens : (c == '\'' || c == '"') = false := by
        rw [Bool.or_eq_false_iff, beq_eq_false_iff_ne, beq_eq_false_iff_ne]
        exact ⟨ne_of_startsPlainWord starts rfl, ne_of_startsPlainWord starts rfl⟩
      rw [List.cons_append, lexFrom]
      simp only [skipped, bar, mark, opens, starts, taken, Bool.false_eq_true, if_false, if_true,
        List.length_cons, Nat.add_sub_cancel, List.drop_left]
      exact bind_pure_comp _ _

theorem RuleWord.Spells.length_pos (spelled : Spells word spelling) : 0 < spelling.length := by
  cases spelled <;> simp

/-- The tokens of a rule are the words that it is written with. -/
theorem lexFrom_writes (writes : Writes words chars) (enough : chars.length ≤ fuel) :
    ∃ tokens, lexFrom field ordinal fuel offset chars = .ok tokens ∧
      Placed field ordinal words tokens := by
  induction writes generalizing fuel offset with
  | nil => exact ⟨[], by cases fuel <;> rfl, rfl, by simp⟩
  | blank skipped writes ih =>
      cases fuel with
      | zero => simp at enough
      | succ fuel =>
          rw [lexFrom_blank skipped]
          exact ih (by simpa using enough)
  | @word word spelling chars words spelled ends writes ih =>
      have width := spelled.length_pos
      rw [List.length_append] at enough
      cases fuel with
      | zero => omega
      | succ fuel =>
          obtain ⟨tokens, lexed, spelledLater, owned⟩ :=
            @ih fuel (offset + spelling.length) (by omega)
          refine ⟨word.token field ordinal offset :: tokens, ?_, ?_, ?_⟩
          · rw [lexFrom_word spelled ends, lexed]
            rfl
          · rw [List.map_cons, spelledLater]
            rfl
          · intro token member
            rcases List.mem_cons.mp member with rfl | later
            · exact ⟨rfl, rfl⟩
            · exact owned token later

end Lexing

/-- Whether a text is a name that rules can capture by. -/
def isPlainWord (text : String) : Bool :=
  match text.toList with
  | [] => false
  | first :: rest => startsPlainWord first && rest.all continuesPlainWord

namespace RuleWord

/-- A text between single quotes, with a backslash only where there must be one. -/
def escape : List Char → List Char
  | [] => []
  | c :: rest => if c = '\'' ∨ c = '\\' then '\\' :: c :: escape rest else c :: escape rest

/-- One way to write a word. -/
def spelling (word : RuleWord) : List Char :=
  match word.kind with
  | .literal => '\'' :: (escape word.text.toList ++ ['\''])
  | _ => word.text.toList

/-- One way to write some words, with a space after each. -/
def spellings (words : List RuleWord) : List Char :=
  words.flatMap fun word => word.spelling ++ [' ']

theorem escapes_escape (letters : List Char) : Escapes '\'' letters (escape letters) := by
  induction letters with
  | nil => exact .nil
  | cons c rest ih =>
      by_cases special : c = '\'' ∨ c = '\\'
      · rw [escape, if_pos special]
        exact .escaped ih
      · rw [escape, if_neg special]
        obtain ⟨inside, unescaped⟩ := not_or.mp special
        exact .plain inside unescaped ih

theorem spells_literal (text : String) : Spells (.literal text) (spelling (.literal text)) := by
  have spelled := Spells.literal (.inl rfl) (escapes_escape text.toList)
  rwa [String.ofList_toList] at spelled

theorem spells_name {text : String} (plain : isPlainWord text = true) :
    Spells (.name text) (spelling (.name text)) := by
  obtain ⟨letters, rfl⟩ : ∃ letters, text = String.ofList letters := ⟨text.toList, by simp⟩
  rw [isPlainWord, String.toList_ofList] at plain
  simp only [spelling, name, String.toList_ofList]
  cases letters with
  | nil => cases plain
  | cons first rest =>
      rw [Bool.and_eq_true, List.all_eq_true] at plain
      exact .name plain.1 plain.2

theorem spells_mark {text : String} (member : text ∈ ["(", ")", "+", "?", "*", "@"]) :
    Spells (.mark text) (spelling (.mark text)) := by
  simp only [List.mem_cons, List.not_mem_nil, or_false] at member
  rcases member with rfl | rfl | rfl | rfl | rfl | rfl <;> exact .mark (by decide)

/-- Whether all of some words can be written. -/
def Spelled (words : List RuleWord) : Prop := ∀ word ∈ words, Spells word word.spelling

theorem Spelled.nil : Spelled [] := by
  intro word member
  cases member

theorem Spelled.cons {word : RuleWord} (first : Spells word word.spelling) (rest : Spelled words) :
    Spelled (word :: words) :=
  List.forall_mem_cons.mpr ⟨first, rest⟩

theorem Spelled.append (first : Spelled words) (rest : Spelled later) : Spelled (words ++ later) :=
  List.forall_mem_append.mpr ⟨first, rest⟩

theorem writes_spellings (spelled : Spelled words) :
    Writes words (spellings words) := by
  induction words with
  | nil => exact .nil
  | cons word words ih =>
      have later := ih (fun other member => spelled other (List.mem_cons_of_mem word member))
      rw [spellings, List.flatMap_cons, List.append_assoc]
      refine .word (spelled word (by simp)) ?_ (.blank (by decide) later)
      intro _ next head
      cases head
      decide

end RuleWord

end RecordGrammar
