namespace RecordGrammar.CommandLine

/-! Folders: files by the paths that lead to them.

The names in a path have slashes between them. A point among them stands for the folder that has
been reached, and two points for the one around it. A path that ends in a slash or in a point leads
to a folder, or to nothing.
-/

/-- Some files, each by the names on the way to it. -/
structure Folder where
  files : List (List String × List Char) := []

/-- Why there is no file at the end of a path: nothing is there, a folder is, one of the names on
the way is that of a file, or it is no path at all. -/
inductive PathError where
  | missing
  | isFolder
  | notFolder
  | malformed
deriving DecidableEq, Repr

def pathParts (path : String) : List String := path.splitOn "/"

/-- The names on the way to the end of a path. -/
def pathNames (path : String) : List String :=
  (pathParts path).filter fun part => part != "" && part != "."

namespace Folder

def ofPaths (files : List (String × List Char)) : Folder where
  files := files.map fun (path, content) => (pathNames path, content)

/-- Whether a path leads to a folder, if to anything. -/
def endsInFolder (path : String) : Bool :=
  match (pathParts path).getLast? with
  | some part => part == "" || part == "."
  | none => false

/-- The content of the file at the end of a path. Nothing is known about what is outside of the
folder, but that the folders around it exist. -/
def read (folder : Folder) (path : String) : Except PathError (List Char) :=
  let names := pathNames path
  if path.toList.contains '\x00' then .error .malformed
  else if path == "" then .error .missing
  else if names.all (· == "..") then .error .isFolder
  else if path.toList.head? == some '/' then .error .missing
  else
    match folder.files.find? fun file => file.1 == names with
    | some (_, content) => if endsInFolder path then .error .notFolder else .ok content
    | none =>
        if folder.files.any fun file => names.isPrefixOf file.1 then .error .isFolder
        else if folder.files.any fun file => file.1.isPrefixOf names then .error .notFolder
        else .error .missing

end Folder

end RecordGrammar.CommandLine
