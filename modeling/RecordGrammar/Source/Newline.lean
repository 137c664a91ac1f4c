namespace RecordGrammar.Source

/-! Reading text files: every line ends with a line feed, however it ended in the file. -/

/-- Turns a carriage return, alone or with a line feed behind it, into a line feed. -/
def unifyNewlines : List Char → List Char
  | [] => []
  | [c] => [if c == '\r' then '\n' else c]
  | c :: next :: rest =>
      if c == '\r' then
        if next == '\n' then '\n' :: unifyNewlines rest else '\n' :: unifyNewlines (next :: rest)
      else c :: unifyNewlines (next :: rest)

end RecordGrammar.Source
