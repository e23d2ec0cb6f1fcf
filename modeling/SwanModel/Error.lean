/-!
# Causes of failure

Every operation of the library that can fail gives one of these causes.
-/

namespace SwanModel

/-- Why an operation failed. -/
inductive Error where
  /-- A value has no such member. -/
  | missingMember
  /-- A value has the wrong kind for what is asked of it. -/
  | wrongKind
  /-- A position lies outside a sequence. -/
  | outOfRange
  /-- A name or key is not bound. -/
  | unknownKey
  /-- A value has the right kind but cannot be used. -/
  | unusable
  /-- A text is no decimal integer. -/
  | notAnInteger (shown : String)
  /-- A decimal integer has more digits than are read. -/
  | tooManyDigits
  /-- A number is infinite where an integer is needed. -/
  | infinite
  /-- A condition that must hold does not. -/
  | violated
  /-- A result was asked for before it was made. -/
  | unset
  /-- A text is not JSON. -/
  | notJson
  | noSuchFile
  | isDirectory
  | notDirectory
  /-- A path or a component of it is longer than a file system takes. -/
  | nameTooLong
  /-- A computation went deeper than allowed. -/
  | tooDeep
  /-- The body of an operator is needed before it is computed; the number names the operator. -/
  | pending (operator : Nat)
  /-- A failure that the library explains in its own words and writes to the log. -/
  | reported (text : String)
deriving DecidableEq, Repr, Inhabited

def Error.message : Error → Option String
  | .notAnInteger shown => some ("invalid literal for int() with base 10: " ++ shown)
  | .reported text => some text
  | _ => none

def Error.report? : Error → Option String
  | .reported text => some text
  | _ => none

/-- Severity of a log line. -/
inductive Level where
  | debug | info | warning | error
deriving DecidableEq, Repr, Inhabited

/-- A line of the log. -/
structure LogLine where
  level : Level
  text : String
deriving DecidableEq, Repr, Inhabited

def Error.log (e : Error) : List LogLine :=
  (e.report?.map (LogLine.mk .error)).toList

end SwanModel
