import RecordGrammar.Parse
import RecordGrammar.Worked.Lexeme

namespace RecordGrammar.Worked.Ini

open RecordGrammar.Text

/-! Settings files: sections in brackets, each with lines that give a key a value. -/

def comment : Pattern :=
  .both (.one (.ofList ['#', ';'])) (.star (.one .inLine))

/-- A number. A leading zero makes it a word instead, which is then the longer match. -/
def number : Pattern := .both wholeNumber fraction

/-- A word: everything up to white space, a bracket, an equals sign or a comment. -/
def word : Pattern :=
  .plus (.one (.complement (.union .blank (.ofList ['[', ']', '=', '#', ';']))))

/-- The scanner of settings files. Of a number and a word of the same length the number wins. -/
def scanner : Scanner where
  dialect := .table
    [.ignore blanks 0,
     .ignore comment 0,
     .token "Number" number (some .number) 0,
     .token "String" word (some .string) 0,
     .token "Operator" (.one (.ofList [']', '[', '='])) (some .operator) 0]
  kinds := [("Number", some .number), ("String", some .string), ("Operator", some .operator)]
  omitted := []

def entry : Shape where
  name := "Entry"
  fields :=
    [{ name := "key", rule := "@String '='" },
     { name := "value", rule := "(@Number | @String)", kind := .scalar }]

def titled : Shape where
  name := "Section"
  fields :=
    [{ name := "title", rule := "'[' @String ']'" },
     { name := "entries", rule := "(@@)*", kind := .nested, element := some (.named "Entry")
       many := true }]

def file : Shape where
  name := "IniFile"
  fields :=
    [{ name := "sections", rule := "(@@)*", kind := .nested, element := some (.named "Section")
       many := true }]

def registry : Registry := .ofGrammar "ini" scanner [entry, titled, file]

/-- The number of the shape of a whole file. -/
def fileId : ShapeId := 2

def parse (text : List Char) : Registry.Report Value :=
  registry.parse { shape := fileId } { content := text }

/-- The items of an attribute that holds a list. -/
def itemsOf (value : Value) (name : String) : List Value :=
  match value.attribute? name with
  | some (.list items) => items
  | _ => []

def textOf (value : Value) (name : String) : Wording :=
  match value.attribute? name with
  | some (.text text) => text
  | _ => []

/-- The entries of a section by key. The last value of a key counts. -/
def entriesData (value : Value) : Value :=
  .dictionary ((itemsOf value "entries").foldl (fun known entry =>
    Binding.put known (textOf entry "key") ((entry.attribute? "value").getD .null)) [])

/-- The sections of a file by title, as plain data. The last section of a title counts. -/
def fileData (value : Value) : Value :=
  .dictionary ((itemsOf value "sections").foldl (fun known part =>
    Binding.put known (textOf part "title") (entriesData part)) [])

end RecordGrammar.Worked.Ini
