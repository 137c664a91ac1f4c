import RecordGrammar.Pattern.Basic

namespace RecordGrammar.Worked

/-! Patterns that several of the worked grammars use. -/

def blanks : Pattern := .plus (.one .blank)

def digits : Pattern := .plus (.one .digit)

def wholeNumber : Pattern :=
  .either (.one (.character '0')) (.both (.one (.range '1' '9')) (.star (.one .digit)))

/-- The fraction of a number, if there is one. -/
def fraction : Pattern :=
  .optional (.both (.one (.character '.')) digits)

end RecordGrammar.Worked
