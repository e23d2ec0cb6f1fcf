import SwanModel.Error
import SwanModel.Json.Value

/-!
# Interfaces

An interface names the members that its providers have, and answers nothing where a provider gives
none of its own.
-/

namespace SwanModel

/-- Interfaces of the library. -/
inductive Interface where
  /-- What reads texts of programs. -/
  | reader
  /-- What holds content. -/
  | asset
  /-- What holds the text of a program. -/
  | code
  | project
  | application
deriving DecidableEq, Repr

namespace Interface

/-- A member: a property, or a method with a number of arguments. -/
inductive Member where
  | property (name : String)
  | method (name : String) (arity : Nat)
deriving DecidableEq, Repr

def Member.name : Member → String
  | .property name | .method name _ => name

def all : List Interface := [.reader, .asset, .code, .project, .application]

def name : Interface → String
  | .reader => "Parser"
  | .asset => "Asset"
  | .code => "SwanCode"
  | .project => "IProject"
  | .application => "IScadeOne"

def ofName? (name : String) : Option Interface := all.find? (·.name == name)

/-- Whether the interface asks its providers for members, so that it cannot stand alone. -/
def isAbstract : Interface → Bool
  | .reader | .asset => true
  | _ => false

def arity : Interface → Nat
  | .asset => 1
  | _ => 0

def members : Interface → List Member
  | .reader =>
    ["module_body", "module_interface", "declaration", "equation", "expression", "scope_section",
      "op_expr", "operator_block", "user_operator"].map (.method · 1)
  | .asset => [.property "source", .method "exists" 0, .method "content" 0, .method "set_content" 1]
  | .code => [.property "name"]
  | .project => [.property "app", .method "all_swan_sources" 0]
  | .application => [.property "logger"]

def create (i : Interface) (init : List Json) : Except Error String :=
  if i.isAbstract || init.length != i.arity then .error .wrongKind else .ok i.name

/-- What a property answers: the origin of an asset is what it was created with. -/
def value (i : Interface) (init : List Json) : Json :=
  match i, init with
  | .asset, [origin] => origin
  | _, _ => .null

/-- Asks a provider that gives no member of its own; a method is called with arguments. -/
def ask (i : Interface) (init : List Json) (member : String) (args : Option (List Json)) :
    Except Error Json :=
  if init.length != i.arity then
    .error .wrongKind
  else
    match i.members.find? (·.name == member), args with
    | none, _ => .error .missingMember
    | some (.property _), none => .ok (i.value init)
    | some (.method _ arity), some args =>
      if args.length == arity then .ok .null else .error .wrongKind
    | some (.property _), some _ => .error .wrongKind
    | some (.method _ _), none => .ok .null

end Interface

end SwanModel
