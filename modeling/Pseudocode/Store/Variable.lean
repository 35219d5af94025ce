import Pseudocode.Text.Accent
import Pseudocode.Value.Display

/-!
# Variables

A variable has a name as it was first written, a type and a value. Types are named by words, which
are compared without accents and in small letters; a word that names no known type is a type of its
own, whose variables start empty.
-/

namespace Pseudocode

/-- The type of a variable. -/
inductive VarType where
  | integer | real | character | string | logical | array
  | other (word : Text)
deriving Repr, DecidableEq

namespace VarType

/-- The types that have a word of their own. -/
def known : List (String × VarType) :=
  [("entero", integer), ("real", real), ("caracter", character), ("cadena", string),
   ("logico", logical), ("arreglo", array)]

/-- The type that goes by exactly this word. -/
def ofWord (word : Text) : VarType :=
  match known.find? (·.1.toList == word) with
  | some (_, type) => type
  | none => other word

/-- The word that a type goes by. -/
def word : VarType → Text
  | integer => "entero".toList
  | real => "real".toList
  | character => "caracter".toList
  | string => "cadena".toList
  | logical => "logico".toList
  | array => "arreglo".toList
  | other word => word

/-- Further words for types. -/
def aliases : List (String × VarType) :=
  [("numero", real), ("numerico", real), ("texto", string)]

/-- The type that a program means by a word. -/
def named (word : Text) : VarType :=
  let key := word.normalize
  match aliases.find? (·.1.toList == key) with
  | some (_, type) => type
  | none => ofWord key

/-- The value that a variable of a type starts with. -/
def initial : VarType → Value
  | integer | real => .int 0
  | character | string => .text []
  | logical => .bool false
  | array | other _ => .null

end VarType

/-- A variable. -/
structure Variable where
  name : Text
  type : VarType
  value : Value
deriving Repr, DecidableEq

namespace Variable

/-- What the names of a variable have in common, however they are written. -/
def key (v : Variable) : Text := v.name.lower

/-- Whether two variables have the same name, the same type and equal values. -/
def equals (a b : Variable) : Bool :=
  a.name == b.name && a.type == b.type && a.value.equals b.value

/-- The value of a variable as a list of variables shows it: text in quotes, arrays in brackets. -/
def describe (v : Variable) : Except Fault Text :=
  match v.value with
  | .null => .ok "null".toList
  | .array xs =>
    .ok ('[' :: Text.join ", ".toList (xs.toList.map Number.displayReal) ++ [']'])
  | value =>
    if v.type == .string || v.type == .character then do
      return Text.doubleQuote :: (← value.plain) ++ [Text.doubleQuote]
    else value.display

/-- A variable as messages show it. -/
def literal (v : Variable) : Except Fault Text := do
  let value ← v.value.literal
  return "Variable(".toList ++
    Text.join ", ".toList [v.name.quoted, v.type.word.quoted, value] ++ [')']

end Variable

end Pseudocode
