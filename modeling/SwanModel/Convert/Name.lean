import SwanModel.Convert.Basic

/-! # Conversion of names and protected texts -/

namespace SwanModel.Convert

def option (tree : ParseTree) : Conversion Term := do
  return Term.ofTree (← ofExcept tree.value)

def markup (tree : ParseTree) : Conversion Term := do
  return Term.ofTree (← ofExcept tree.rawMarkup)

def protectedText (tree : ParseTree) : Conversion Term := do
  return Term.ofTree (← ofExcept tree.rawText)

def protectedItem (tree : ParseTree) : Conversion Term := do
  make (.name .verbatim) [← protectedText tree, ← markup tree]

def identifier (tree : ParseTree) : Conversion Term :=
  match tree with
  | .identifier name pragmas => do
    let texts ← ofExcept pragmas.members
    make (.name .identifier)
      [Term.ofTree name, .list (texts.map Term.ofTree), .absent, .truth false]
  | _ => throw .missingMember

def path (tree : ParseTree) : Conversion Term := do
  make (.name .path) [← each identifier tree]

def pathOrText (tree : ParseTree) : Conversion Term := do
  match ← tag tree with
  | "PIOfId" => path (← itemAt 1 tree)
  | _ => make (.name .path) [← protectedText (← item tree)]

def locatedText (tree : ParseTree) : Conversion Term := do
  return Term.ofTree (← ofExcept tree.textData)

def instanceId (tree : ParseTree) : Conversion Term := do
  match ← tag tree with
  | "InstanceIdSelf" => return .text "self"
  | _ => locatedText (← item tree)

def nameText (tree : ParseTree) : Conversion Term := do
  match ← locatedText tree with
  | .text s => return .text (String.ofList (s.toList.drop 1))
  | .list items => return .list (items.drop 1)
  | _ => throw .wrongKind

def nameIdentifier (tree : ParseTree) : Conversion Term := do
  make (.name .identifier) [← nameText tree, .absent, .absent, .truth true]

def plainIdentifier (text : Term) : Conversion Term :=
  make (.name .identifier) [text, .absent, .absent, .truth false]

def luid (tree : ParseTree) : Conversion Term := do
  make (.name .luid) [← locatedText tree]

def identification (tree : ParseTree) : Conversion Term :=
  match tree with
  | .identification id luid => do
    let id := Term.ofTree id
    let id ← if id.isTruthy then plainIdentifier id else pure id
    let luid := Term.ofTree luid
    let luid ← if luid.isTruthy then make (.name .luid) [luid] else pure luid
    make (.equation .identification) [luid, id]
  | _ => throw .missingMember

def modulePath (name : String) : Conversion Term :=
  match Name.readPath name with
  | .names names => do
    make (.name .path) [.list (← names.mapM fun n => plainIdentifier (.text n))]
  | .verbatim text => make (.name .path) [.text text]

end SwanModel.Convert
