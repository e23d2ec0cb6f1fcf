import SwanModel.Json.Writer

/-!
# Options of a JSON text

`Json.Style.ofOptions` turns the options that a caller names into a style, or refuses them.
-/

namespace SwanModel.Json

/-- The two items that a value holds, where a value is read as a pair. -/
def pairItems : Json → Except Error (Json × Json)
  | .arr [a, b] => .ok (a, b)
  | .str s =>
    match s.toList with
    | [a, b] => .ok (.str a.toString, .str b.toString)
    | _ => .error .unusable
  | .obj [(a, _), (b, _)] => .ok (.str a, .str b)
  | .arr _ | .obj _ => .error .unusable
  | _ => .error .wrongKind

def Style.withSeparators (style : Style) : Json → Except Error Style
  | .null => .ok style
  | value => do
    match ← pairItems value with
    | (.str item, .str key) => return { style with itemSeparator := some item, keySeparator := key }
    | _ => throw .wrongKind

/-- The indent that a value stands for: a text, or a number of blanks. -/
def Style.withIndent (style : Style) : Json → Except Error Style
  | .null => .ok style
  | .int n => .ok { style with indent := some (String.ofList (List.replicate n.toNat ' ')) }
  | .bool b => .ok { style with indent := some (if b then " " else "") }
  | .str s => .ok { style with indent := some s }
  | _ => .error .wrongKind

def Style.withOption (style : Style) (name : String) (value : Json) : Except Error Style :=
  match name, value with
  | "indent", _ => style.withIndent value
  | "sort_keys", _ => .ok { style with sortKeys := value.isTruthy }
  | "ensure_ascii", _ => .ok { style with ascii := value.isTruthy }
  | "allow_nan", _ => .ok { style with allowNan := value.isTruthy }
  | "separators", _ => style.withSeparators value
  | "cls", .null | "skipkeys", _ | "check_circular", _ | "default", _ => .ok style
  | _, _ => .error .wrongKind

def Style.ofOptions (options : List (String × Json)) : Except Error Style :=
  options.foldlM (fun style (name, value) => style.withOption name value) {}

end SwanModel.Json
