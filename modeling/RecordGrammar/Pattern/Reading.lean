import RecordGrammar.Pattern.Basic

namespace RecordGrammar.Pattern

open RecordGrammar.Text

/-! Reading patterns from text.

A pattern is written in the usual way: characters stand for themselves, `.` for any character of a
line, brackets for classes, a backslash for a class or for a character by itself, parentheses for
groups and for looking ahead, a bar for alternatives, and `*`, `+`, `?` and counts in braces for
repetition, with a `?` behind for as few turns as possible. A text that is none of this is not
read.
-/

/-- The character with a code of exactly so many hexadecimal digits, and the text after it. -/
def readHexCharacter? (width : Nat) (text : List Char) : Option (Char × List Char) := do
  let digits := text.take width
  if digits.length < width then none
  else
    let values ← digits.mapM hexValue?
    return (Char.ofNat (values.foldl (fun code value => 16 * code + value) 0), text.drop width)

/-- The class that a letter after a backslash stands for. -/
def letterClass? (c : Char) : Option CharSet :=
  if c == 'd' then some .digit
  else if c == 'D' then some (.complement .digit)
  else if c == 'w' then some .word
  else if c == 'W' then some (.complement .word)
  else if c == 's' then some .blank
  else if c == 'S' then some (.complement .blank)
  else none

/-- The control character that a letter after a backslash stands for. -/
def letterControl? (c : Char) : Option Char :=
  if c == 'n' then some '\n'
  else if c == 't' then some '\t'
  else if c == 'r' then some '\r'
  else if c == 'f' then some '\x0c'
  else if c == 'v' then some '\x0b'
  else if c == 'a' then some '\x07'
  else if c == '0' then some '\x00'
  else none

/-- The character after a backslash, when it stands for one character, and the text behind it.
Letters without a meaning are not read. -/
def readEscapedCharacter? : List Char → Option (Char × List Char)
  | [] => none
  | c :: rest =>
      match letterControl? c with
      | some control => some (control, rest)
      | none =>
          if c == 'x' then readHexCharacter? 2 rest
          else if c == 'u' then readHexCharacter? 4 rest
          else if c == 'U' then readHexCharacter? 8 rest
          else if c.isAlphanum then none
          else some (c, rest)

/-- One member of a bracketed class: a class of its own, or a character. -/
def readClassMember? : List Char → Option ((CharSet ⊕ Char) × List Char)
  | [] => none
  | c :: rest =>
      if c == '\\' then
        match rest with
        | [] => none
        | letter :: after =>
            match letterClass? letter with
            | some set => some (.inl set, after)
            | none =>
                if letter == 'b' then some (.inr '\x08', after)
                else (readEscapedCharacter? rest).map fun (escaped, after) => (.inr escaped, after)
      else some (.inr c, rest)

/-- The members of a bracketed class up to the closing bracket. A closing bracket in front is a
member, and so is a dash that stands last. Every step takes a character, so the length of the text
is fuel enough. -/
def readClassMembers? : Nat → Bool → List Char → Option (CharSet × List Char)
  | 0, _, _ => none
  | fuel + 1, isFirst, text =>
      match text with
      | [] => none
      | c :: rest =>
          if c == ']' && !isFirst then some (.none, rest)
          else do
            let (member, after) ← readClassMember? text
            match member with
            | .inl set =>
                let (others, tail) ← readClassMembers? fuel false after
                return (.union set others, tail)
            | .inr first =>
                match after with
                | '-' :: next :: _ =>
                    if next == ']' then
                      let (others, tail) ← readClassMembers? fuel false after
                      return (.union (.character first) others, tail)
                    else
                      let (member, after) ← readClassMember? (after.drop 1)
                      match member with
                      | .inl _ => none
                      | .inr last =>
                          let (others, tail) ← readClassMembers? fuel false after
                          return (.union (.range first last) others, tail)
                | _ =>
                    let (others, tail) ← readClassMembers? fuel false after
                    return (.union (.character first) others, tail)

def readClass? (text : List Char) : Option (CharSet × List Char) :=
  match text with
  | '^' :: rest =>
      (readClassMembers? (rest.length + 1) true rest).map fun (set, tail) => (.complement set, tail)
  | _ => readClassMembers? (text.length + 1) true text

/-- What stands after a backslash outside of brackets. -/
def readEscape? (text : List Char) : Option (Pattern × List Char) :=
  match text with
  | [] => none
  | c :: rest =>
      match letterClass? c with
      | some set => some (.one set, rest)
      | none =>
          if c == 'b' then some (.wordEdge true, rest)
          else if c == 'B' then some (.wordEdge false, rest)
          else if c == 'A' then some (.textStart, rest)
          else if c == 'Z' then some (.ahead (.one (.complement .none)) false, rest)
          else (readEscapedCharacter? text).map fun (escaped, after) =>
            (.one (.character escaped), after)

/-- The number at the front of a text, if there is one. -/
def readCount (text : List Char) : Option Nat × List Char :=
  let digits := text.takeWhile Text.isPlainDigit
  (if digits.isEmpty then none
    else some (digits.foldl (fun number c => 10 * number + (c.toNat - '0'.toNat)) 0),
   text.dropWhile Text.isPlainDigit)

/-- The bounds of a repetition in braces, after the opening brace. -/
def readBraces? (text : List Char) : Option (Nat × Option Nat × List Char) :=
  if text.head? == some '}' then none
  else
    let (least, rest) := readCount text
    match rest with
    | '}' :: after => least.map fun count => (count, some count, after)
    | ',' :: rest =>
        let (most, rest) := readCount rest
        match rest with
        | '}' :: after => some (least.getD 0, most, after)
        | _ => none
    | _ => none

/-- The bounds of the repetition that stands at the front of a text. -/
def readBounds? (text : List Char) : Option (Nat × Option Nat × List Char) :=
  match text with
  | [] => none
  | c :: rest =>
      if c == '*' then some (0, none, rest)
      else if c == '+' then some (1, none, rest)
      else if c == '?' then some (0, some 1, rest)
      else if c == '{' then readBraces? rest
      else none

/-- A pattern with the repetition that follows it, if any. -/
def readRepetition (inner : Pattern) (text : List Char) : Pattern × List Char :=
  match readBounds? text with
  | none => (inner, text)
  | some (least, most, rest) =>
      match rest with
      | '?' :: after => (.repeated inner least most false, after)
      | _ => (.repeated inner least most true, rest)

/-- Drops the name of a named group, up to the closing angle bracket. -/
def dropGroupName (text : List Char) : List Char :=
  (text.dropWhile (· != '>')).drop 1

mutual
/-- Alternatives, up to the end of the text or of the group. Every call below takes a character or
goes one level down, so three times the length of the text is fuel enough. -/
def readAlternatives? : Nat → List Char → Option (Pattern × List Char)
  | 0, _ => none
  | fuel + 1, text => do
      let (first, rest) ← readSequence? fuel text
      match rest with
      | '|' :: after =>
          let (second, tail) ← readAlternatives? fuel after
          return (.either first second, tail)
      | _ => return (first, rest)

def readSequence? : Nat → List Char → Option (Pattern × List Char)
  | 0, _ => none
  | fuel + 1, text =>
      match text with
      | [] => some (.nothing, [])
      | c :: _ =>
          if c == '|' || c == ')' then some (.nothing, text)
          else do
            let (item, rest) ← readItem? fuel text
            let (item, rest) := readRepetition item rest
            let (others, tail) ← readSequence? fuel rest
            return (if others = .nothing then item else .both item others, tail)

/-- One item: a character, a class, a place, or a group. -/
def readItem? : Nat → List Char → Option (Pattern × List Char)
  | 0, _ => none
  | fuel + 1, text =>
      match text with
      | [] => none
      | c :: rest =>
          if c == '.' then some (.one .inLine, rest)
          else if c == '^' then some (.textStart, rest)
          else if c == '$' then some (.textEnd, rest)
          else if c == '[' then (readClass? rest).map fun (set, tail) => (.one set, tail)
          else if c == '\\' then readEscape? rest
          else if c == '(' then
            match rest with
            | '?' :: ':' :: body => readGroup? fuel body
            | '?' :: '=' :: body =>
                (readGroup? fuel body).map fun (inner, tail) => (.ahead inner true, tail)
            | '?' :: '!' :: body =>
                (readGroup? fuel body).map fun (inner, tail) => (.ahead inner false, tail)
            | '?' :: 'P' :: '<' :: body => readGroup? fuel (dropGroupName body)
            | '?' :: _ => none
            | _ => readGroup? fuel rest
          else if c == '*' || c == '+' || c == '?' then none
          else some (.one (.character c), rest)

/-- The inside of a group and its closing parenthesis. -/
def readGroup? : Nat → List Char → Option (Pattern × List Char)
  | 0, _ => none
  | fuel + 1, text => do
      let (inner, rest) ← readAlternatives? fuel text
      match rest with
      | ')' :: tail => return (inner, tail)
      | _ => none
end

def read? (text : List Char) : Option Pattern := do
  let (pattern, rest) ← readAlternatives? (4 * text.length + 4) text
  if rest.isEmpty then return pattern else none

end RecordGrammar.Pattern
