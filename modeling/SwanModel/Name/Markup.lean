/-!
# Markups

Text that could not be read is kept as it is, between two copies of a markup.
-/

namespace SwanModel.Name

/-- The markup of text whose construct is unknown. -/
def defaultMarkup : String := "syntax"

def enclose (markup text : String) : String :=
  "\x7b" ++ markup ++ "%" ++ text ++ "%" ++ markup ++ "\x7d"

/-- A text between markups if it is protected, else the text. -/
def protect (isProtected : Bool) (markup text : String) : String :=
  if isProtected then enclose markup text else text

end SwanModel.Name
