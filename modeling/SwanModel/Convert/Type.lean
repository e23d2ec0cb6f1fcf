import SwanModel.Convert.Name

/-! # Conversion of types -/

namespace SwanModel.Convert

def predefinedType : ParseTree → Conversion Term :=
  constantOf <| PredefinedType.all.map fun type => (type.name, .predefinedType type)

def numericKind : ParseTree → Conversion Term :=
  constantOf <| NumericKind.all.map fun kind => (kind.name, .numericKind kind)

def structField (self : Convert) (tree : ParseTree) : Conversion Term := do
  let id ← identifier (← itemAt 1 tree)
  let type ← self .type (← itemAt 2 tree)
  make (.type .field) [id, type]

def type (self : Convert) (tree : ParseTree) : Conversion Term := do
  match ← tag tree with
  | "TPredefinedType" => make (.type .predefined) [← predefinedType (← item tree)]
  | "TSizedSigned" => make (.type .sized) [← self .expr (← item tree), .truth true]
  | "TSizedUnsigned" => make (.type .sized) [← self .expr (← item tree), .truth false]
  | "TAlias" => make (.type .named) [← path (← item tree)]
  | "TVar" => make (.type .typeVariable) [← nameIdentifier (← item tree)]
  | "TStruct" => make (.type .struct) [← each (structField self) (← item tree)]
  | "TArray" =>
    let elementType ← self .type (← itemAt 1 tree)
    let size ← self .expr (← itemAt 2 tree)
    make (.type .array) [elementType, size]
  | _ => return .absent

def typeOrText (self : Convert) (tree : ParseTree) : Conversion Term := do
  match ← tag tree with
  | "RawTypeExpr" => make (.type .verbatim) [← protectedText (← item tree)]
  | _ => self .type (← itemAt 1 tree)

def namedGroupType (self : Convert) (tree : ParseTree) : Conversion Term := do
  let id ← identifier (← itemAt 1 tree)
  let type ← self .groupType (← itemAt 2 tree)
  make (.type .groupNamed) [id, type]

def groupType (self : Convert) (tree : ParseTree) : Conversion Term := do
  match ← tag tree with
  | "GTypeExpr" => make (.type .groupType) [← self .type (← item tree)]
  | _ =>
    let positional ← each (self .groupType) (← itemAt 1 tree)
    let named ← each (namedGroupType self) (← itemAt 2 tree)
    make (.type .groupList) [positional, named]

def variantCase (self : Convert) (tree : ParseTree) : Conversion Term := do
  let id ← identifier (← itemAt 1 tree)
  let type ← optional (self .type) (← itemAt 2 tree)
  make (.type .variantCase) [id, type]

end SwanModel.Convert
