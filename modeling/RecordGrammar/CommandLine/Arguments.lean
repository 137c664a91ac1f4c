import RecordGrammar.Text.Class

namespace RecordGrammar.CommandLine

open RecordGrammar.Text

/-! The arguments of the command line.

There are two positional arguments, of which the second may be missing, and switches that may stand
anywhere. The long name of a switch may be cut short as long as no other switch begins in the same
way; short names may be written in one word. Behind two dashes everything is positional.
-/

/-- The switches. -/
inductive Switch where
  | help
  | indent
  | unfinished
  | tree
deriving DecidableEq, Repr

def Switch.longNames : List (String × Switch) :=
  [("--help", .help), ("--indent", .indent), ("--partial", .unfinished), ("--tree", .tree)]

def Switch.short? (c : Char) : Option Switch :=
  if c == 'h' then some .help
  else if c == 'i' then some .indent
  else none

/-- What a word on the command line is. A switch that is given a value is refused, because none
takes one. -/
inductive Word where
  | plain (text : String)
  | divider
  | switches (known : List Switch)
  | refused
  | unknown
deriving DecidableEq, Repr

def Word.isOption : Word → Bool
  | .plain _ => false
  | .divider => false
  | .switches _ => true
  | .refused => true
  | .unknown => true

/-- Why there are no arguments to go on with: help was asked for, or they make no sense. -/
inductive Usage where
  | help
  | wrong
deriving DecidableEq, Repr

/-- The exit code for a command line that is not gone on with. -/
def Usage.exitCode : Usage → Nat
  | .help => 0
  | .wrong => 2

/-- The switches of a word that begins with a short one, by what follows it. An equals sign right
behind the first switch counts for nothing as long as something follows it. Every letter has to
name a switch, or the whole word is refused. -/
def readCluster (first : Switch) (text : List Char) : Word :=
  let letters := match text with
    | [] => some []
    | '=' :: [] => none
    | '=' :: rest => some rest
    | rest => some rest
  match letters.bind fun letters => letters.mapM Switch.short? with
  | some others => .switches (first :: others)
  | none => .refused

/-- Whether the text after a dash is a number. One line feed may follow it. -/
def isNumber (text : List Char) : Bool :=
  let body := if text.getLast? == some '\n' then text.dropLast else text
  let (whole, rest) := (body.takeWhile isDecimalDigit, body.dropWhile isDecimalDigit)
  match rest with
  | [] => !whole.isEmpty
  | point :: places => point == '.' && !places.isEmpty && places.all isDecimalDigit

/-- A word that names no switch. With a blank in it, it is positional. -/
def unnamed (text : List Char) : Word :=
  if text.contains ' ' then .plain (String.ofList text) else .unknown

def readLong (text : List Char) : Except Usage Word :=
  let name := String.ofList (text.takeWhile (· != '='))
  let hasValue := text.contains '='
  let use (switch : Switch) : Word := if hasValue then .refused else .switches [switch]
  match Switch.longNames.find? fun entry => entry.1 == name with
  | some (_, switch) => .ok (use switch)
  | none =>
      match Switch.longNames.filter fun entry => name.toList.isPrefixOf entry.1.toList with
      | [] => .ok (unnamed text)
      | [(_, switch)] => .ok (use switch)
      | _ => .error .wrong

/-- What a word is, in front of any divider. -/
def classify (text : String) : Except Usage Word :=
  match text.toList with
  | [] => .ok (.plain text)
  | [_] => .ok (.plain text)
  | first :: second :: rest =>
      if first != '-' then .ok (.plain text)
      else if second == '-' then
        if rest.isEmpty then .ok .divider else readLong (first :: second :: rest)
      else
        match Switch.short? second with
        | some switch => .ok (readCluster switch rest)
        | none =>
            if isNumber (second :: rest) then .ok (.plain text)
            else .ok (unnamed (first :: second :: rest))

def classifyAll : List String → Except Usage (List Word)
  | [] => .ok []
  | text :: rest => do
      match ← classify text with
      | .divider => return .divider :: rest.map .plain
      | word => return word :: (← classifyAll rest)

/-- What the command line asks for. -/
structure Arguments where
  shape : String
  sourcePath : Option String := none
  indent : Bool := false
  unfinished : Bool := false
  tree : Bool := false
deriving DecidableEq, Repr

/-- The positional arguments that are still to come. -/
inductive Awaited where
  | both
  | path
  | none
deriving DecidableEq, Repr

/-- What has been read so far. `extra` says that something was left over. -/
structure Progress where
  awaited : Awaited := .both
  shape : String := ""
  sourcePath : Option String := none
  indent : Bool := false
  unfinished : Bool := false
  tree : Bool := false
  extra : Bool := false
deriving DecidableEq, Repr

/-- Turns switches on, up to the one that asks for help. -/
def Progress.turnOn (progress : Progress) : List Switch → Except Usage Progress
  | [] => .ok progress
  | .help :: _ => .error .help
  | .indent :: rest => turnOn { progress with indent := true } rest
  | .unfinished :: rest => turnOn { progress with unfinished := true } rest
  | .tree :: rest => turnOn { progress with tree := true } rest

/-- Divides words into those of one positional argument, with the dividers around it, and the
rest. -/
def splitPositional (words : List Word) : List Word × Option String × List Word × List Word :=
  let before := words.takeWhile (· == .divider)
  match words.drop before.length with
  | .plain text :: rest =>
      let after := rest.takeWhile (· == .divider)
      (before, some text, after, rest.drop after.length)
  | rest => (before, none, [], rest)

/-- The value of a positional argument. Two dashes are dropped once, and it does not matter whether
they divide. -/
def positionalValue (dividers : Bool) (text : Option String) : Option String :=
  match text with
  | some text => if !dividers && text == "--" then none else some text
  | none => none

/-- Reads the second positional argument, which may be missing. -/
def takePath (progress : Progress) (words : List Word) : Progress × List Word :=
  let (before, text, after, rest) := splitPositional words
  ({ progress with
     awaited := .none
     sourcePath := positionalValue (!(before ++ after).isEmpty) text }, rest)

/-- Reads as many positional arguments as stand at the front. The second one is no longer awaited
once the first one is read, even if it was not there. -/
def takePositionals (progress : Progress) (words : List Word) : Progress × List Word :=
  match progress.awaited with
  | .none => (progress, words)
  | .path => takePath progress words
  | .both =>
      match splitPositional words with
      | (_, none, _, _) => (progress, words)
      | (_, some text, _, rest) => takePath { progress with shape := text } rest

/-- Reads words in turn: positional arguments as they come, and switches. Every step takes at
least one word, so their number is fuel enough. -/
def readWithin : Nat → Progress → List Word → Except Usage Progress
  | 0, progress, _ => .ok progress
  | fuel + 1, progress, words =>
      if words.any Word.isOption then
        match words with
        | [] => .ok progress
        | .refused :: _ => .error .wrong
        | .unknown :: rest => readWithin fuel { progress with extra := true } rest
        | .switches known :: rest => do
            readWithin fuel (← progress.turnOn known) rest
        | first :: others =>
            let (next, rest) := takePositionals progress (first :: others)
            if rest.length < words.length then readWithin fuel next rest
            else
              readWithin fuel { next with extra := true }
                (others.dropWhile fun word => !word.isOption)
      else
        let (next, rest) := takePositionals progress words
        .ok { next with extra := next.extra || !rest.isEmpty }

def parseArguments (words : List String) : Except Usage Arguments := do
  let words ← classifyAll words
  let progress ← readWithin (words.length + 1) {} words
  if progress.awaited == .both || progress.extra then throw .wrong
  return {
    shape := progress.shape
    sourcePath := progress.sourcePath
    indent := progress.indent
    unfinished := progress.unfinished
    tree := progress.tree }

end RecordGrammar.CommandLine
