import RecordGrammar.CommandLine.Arguments
import RecordGrammar.CommandLine.Catalogue
import RecordGrammar.CommandLine.Folder
import RecordGrammar.Document
import RecordGrammar.Source.Newline

namespace RecordGrammar.CommandLine

/-! The command: parses a file into a shape and prints the result, or displays the tree of the
shape. -/

/-- How the command ends: the exit code and what is printed. -/
structure Ending where
  exitCode : Nat := 0
  output : String := ""
  errors : String := ""
deriving DecidableEq, Repr

def Ending.complain (errors : String) : Ending where
  exitCode := 1
  errors := errors

/-- A fault that the command reports, as opposed to one that breaks it off. Every fault of a text
or of a rule is reported. -/
def reported? : Fault → Option String
  | .rule error => some error.message
  | .scan (.blocked blocked) => some blocked.message
  | .noMatch failure => some failure.message
  | _ => none

/-- What breaks the command off: a module name that only makes sense inside of a module, a path
that leads to no file, or a fault that is not reported. -/
inductive Breakdown where
  | designation (error : DesignationError)
  | path (error : PathError)
  | fault (fault : Fault)
deriving DecidableEq, Repr

/-- What there is to do: end, or read a file and parse it. -/
inductive Task where
  | done (ending : Ending)
  | read (path : String) (registry : Registry) (parser : Parser) (style : Document.Style)

def endWith (log : String) (fault : Fault) : Except Breakdown Ending :=
  match reported? fault with
  | some message => .ok (.complain (log ++ message ++ "\n"))
  | none => .error (.fault fault)

def display (registry : Registry) (shape : ShapeId) : Except Breakdown Ending :=
  match (registry.treeOf shape none).result with
  | .ok root => .ok { output := root.outline.render ++ "\n" }
  | .error fault => endWith "" fault

def plan (arguments : Arguments) : Except Breakdown Task :=
  match findShape arguments.shape with
  | .error (.relativeModule name) => .error (.designation (.relativeModule name))
  | .error error => .ok (.done (.complain (error.message ++ "\n")))
  | .ok (registry, shape) =>
      if arguments.tree then (display registry shape).map .done
      else
        match arguments.sourcePath with
        | none => .ok (.done (.complain "A source path is required unless --tree is given.\n"))
        | some path =>
            .ok (.read path registry { shape, complete := !arguments.unfinished }
              { indent := if arguments.indent then some 2 else none })

/-- Parses the content of a file. A record is printed as plain data, and an object with its
attributes. -/
def finish (path : String) (registry : Registry) (parser : Parser) (style : Document.Style)
    (content : List Char) : Except Breakdown Ending :=
  let report := registry.parse parser
    { content := Source.unifyNewlines content, filename := some path }
  let print (value : Value) : Ending :=
    { output := Document.render style value ++ "\n", errors := report.log }
  match report.result with
  | .error fault => endWith report.log fault
  | .ok value =>
      match value.plainData with
      | .ok data => .ok (print data)
      | .error (.absent _) => .ok (print value)
      | .error error => .error (.fault (.member error))

def run (folder : Folder) (arguments : Arguments) : Except Breakdown Ending := do
  match ← plan arguments with
  | .done ending => return ending
  | .read path registry parser style =>
      match folder.read path with
      | .ok content => finish path registry parser style content
      | .error error => throw (.path error)

end RecordGrammar.CommandLine
