import SwanModel.Syntax.ParseTree

/-!
# Readers of program text

A reader turns a text into a parse tree. The parser and the name of the source stay the current ones
until the next source is read.
-/

namespace SwanModel

/-- What a text is read as. -/
inductive ReadRule where
  | body | interface | declaration | equation | expr | scopeSection | opExpr | operatorBlock
  | userOperator
deriving DecidableEq, Repr, Inhabited

namespace ReadRule

def all : List ReadRule :=
  [.body, .interface, .declaration, .equation, .expr, .scopeSection, .opExpr, .operatorBlock,
    .userOperator]

def name : ReadRule → String
  | .body => "body"
  | .interface => "interface"
  | .declaration => "declaration"
  | .equation => "equation"
  | .expr => "expr"
  | .scopeSection => "scope_section"
  | .opExpr => "op_expr"
  | .operatorBlock => "operator_block"
  | .userOperator => "user_operator"

def ofName? (name : String) : Option ReadRule := all.find? (·.name == name)

end ReadRule

/-- How reading a text ends. -/
inductive Outcome where
  | tree (tree : ParseTree)
  /-- The text does not follow the rule. -/
  | refused (message : String)
  /-- The reader broke down. -/
  | crashed (message : String)

/-- What a reader answers to a text. -/
structure Reply where
  logs : List LogLine
  outcome : Outcome

/-- A reader of program text. -/
structure Reader where
  reply : ReadRule → String → Reply
  /-- How deep the trees are that the reader gives, all texts together. -/
  depth : Nat

namespace Reader

/-- The answer to a text that the reader does not know. -/
def unknownText : Reply := ⟨[], .refused "unknown text"⟩

def Reply.height (reply : Reply) : Nat :=
  match reply.outcome with
  | .tree tree => tree.height
  | _ => 0

/-- The reader that knows some texts and refuses the others. -/
def ofTable (table : List ((ReadRule × String) × Reply)) : Reader where
  reply rule text := (table.lookup (rule, text)).getD unknownText
  depth := table.foldr (fun entry n => Reply.height entry.2 + n) 0

/-- The reader that refuses every text. -/
def none : Reader := ofTable []

end Reader

/-- A text to be read: its name, where it comes from and its content, or why there is none. -/
structure Source where
  name : String
  origin : String
  content : Except String String

namespace Source

/-- The name of a text that has none. -/
def anonymous : String := "from_string"

def ofText (text name : String) : Source :=
  ⟨if name.isEmpty then anonymous else name, "<string>", .ok text⟩

end Source

/-- What reading leaves behind. -/
structure Reading where
  /-- The number of the parser that read last. -/
  parser : Nat := 0
  /-- The name of the source that was read last. -/
  source : Option String := none
  /-- The texts that the reader was asked for: rule and origin. -/
  reads : List (ReadRule × String) := []
  logs : List LogLine := []

/-- A computation that may read sources. -/
abbrev Conversion := ReaderT Reader (ExceptT Error (StateM Reading))

/-- Asks the reader for the tree of a source, for a parser. -/
def readSource (parser : Nat) (rule : ReadRule) (source : Source) : Conversion ParseTree := do
  modify fun s => { s with parser := parser, source := some source.name }
  match source.content with
  | .error message => throw (.reported ("Internal: " ++ message))
  | .ok text =>
    let reply := (← read).reply rule text
    modify fun s =>
      { s with reads := s.reads ++ [(rule, source.origin)], logs := s.logs ++ reply.logs }
    match reply.outcome with
    | .tree tree => return tree
    | .refused message => throw (.reported ("Parser: " ++ message))
    | .crashed message => throw (.reported ("Internal: " ++ message))

def currentSource : Conversion String := do
  match (← get).source with
  | some name => return name
  | none => throw .missingMember

def currentParser : Conversion Nat := return (← get).parser

end SwanModel
