import Pseudocode.Text.Quoted

/-!
# Faults

Everything that can go wrong while a program is read or run, as causes. The wording of each cause
is in `Fault.message` and nowhere else.

Faults of the language itself (undefined names, malformed expressions and the like) are shown as
they are. Other faults, such as a number that does not fit a double, are shown together with the
line that was running.
-/

namespace Pseudocode

/-- What is wrong with an expression, or with the value of one. -/
inductive Problem where
  | unexpectedCharacter (c : Char) (column : Nat)
  | invalidNumeral (numeral : Text)
  | unclosedString
  | empty
  | incomplete
  | unexpectedSymbol (symbol : Text) (column : Nat)
  | expected (symbol : Char)
  | incomparable (left right : Text)
  | needsNumbers (operation found : Text)
  | unknownFunction (name : Text)
  | wrongArity (name : Text) (wanted given : Nat)
  | unknownOperator (operator : Text)
  | invalidSize (size : Int) (array : Text)
  | invalidIndex (index array : Text)
  | nonNumericElement (array value : Text)
  | notAnInteger (found : Text)
  | zeroStep
deriving Repr, DecidableEq

/-- A reason why a statement or an expression has no result. -/
inductive Fault where
  /-- A variable is not defined; `hint` asks to say how to define it. -/
  | undefinedVariable (name : Text) (hint : Bool)
  /-- A name does not stand for an array. -/
  | undefinedArray (name : Text)
  /-- An index is an integer outside the array. -/
  | indexOutOfRange (array : Text) (index : Int) (size : Nat)
  /-- An expression is malformed or its operands do not fit; `source` is its text, if known. -/
  | expression (problem : Problem) (source : Option Text)
  /-- The source of input or the observer of the variables refused in the name of the program. -/
  | refused (message : Text)
  /-- An integer lies beyond the range of doubles. -/
  | integerTooLarge
  /-- A quotient of integers lies beyond the range of doubles. -/
  | quotientTooLarge
  /-- An infinity was to become an integer. -/
  | infiniteInteger
  /-- An array was to have more elements than can be counted. -/
  | sizeTooLarge
  /-- A function has no value at an infinity. -/
  | outsideDomain
  /-- Not-a-number was to become an integer. -/
  | undefinedInteger
  /-- A text is not the numeral of an integer. -/
  | invalidInteger (text : Text)
  /-- A text is not the numeral of a real number. -/
  | invalidReal (text : Text)
  /-- An integer has too many digits to be written, or, with their number, to be read. -/
  | tooManyDigits (given : Option Nat)
  /-- The empty value was to become an integer. -/
  | nullInteger
  /-- An array was to become an integer. -/
  | arrayInteger
  /-- A trace has no nodes of this kind. -/
  | unknownNodeKind (kind : Text)
  /-- The source of input or the observer of the variables failed. -/
  | failed (message : Text)
deriving Repr, DecidableEq

/-- The wording of a problem with an expression. -/
def Problem.message : Problem → Text
  | .unexpectedCharacter c column =>
    "Carácter inesperado '".toList ++ c :: "' en la columna ".toList ++ Text.ofNat column
  | .invalidNumeral numeral => "Número inválido '".toList ++ numeral ++ "'".toList
  | .unclosedString => "Cadena sin cerrar".toList
  | .empty => "Expresión vacía".toList
  | .incomplete => "Expresión incompleta".toList
  | .unexpectedSymbol symbol column =>
    "Símbolo inesperado '".toList ++ symbol ++ "' en la columna ".toList ++ Text.ofNat column
  | .expected symbol => "Se esperaba '".toList ++ symbol :: "'".toList
  | .incomparable left right =>
    "No se puede comparar ".toList ++ left.quoted ++ " con ".toList ++ right.quoted
  | .needsNumbers operation found =>
    "Operación '".toList ++ operation ++ "' requiere números, recibió ".toList ++ found.quoted
  | .unknownFunction name => "Función desconocida '".toList ++ name ++ "'".toList
  | .wrongArity name wanted given =>
    "La función '".toList ++ name ++ "' espera ".toList ++ Text.ofNat wanted
      ++ " argumento(s), recibió ".toList ++ Text.ofNat given
  | .unknownOperator operator => "Operador desconocido '".toList ++ operator ++ "'".toList
  | .invalidSize size array =>
    "Tamaño inválido ".toList ++ Text.ofInt size ++ " para el arreglo \"".toList ++ array
      ++ "\"".toList
  | .invalidIndex index array =>
    "Índice inválido ".toList ++ index ++ " para el arreglo \"".toList ++ array ++ "\"".toList
  | .nonNumericElement array value =>
    "El arreglo \"".toList ++ array ++ "\" solo admite valores numéricos, no ".toList ++ value
  | .notAnInteger found => "Se esperaba un número entero, se obtuvo ".toList ++ found.quoted
  | .zeroStep => "El paso de Para no puede ser 0".toList

namespace Fault

/-- The wording of a fault. -/
def message : Fault → Text
  | undefinedVariable name hint =>
    let plain := "Error: La variable \"".toList ++ name ++ "\" no ha sido definida.".toList
    if hint then plain ++ " Use \"Definir ".toList ++ name ++ " Como Tipo\" primero.".toList
    else plain
  | undefinedArray name =>
    "Error: El arreglo \"".toList ++ name ++ "\" no ha sido definido. Use \"Dimension ".toList
      ++ name ++ "[tamaño]\" primero.".toList
  | indexOutOfRange array index size =>
    "Error: Índice ".toList ++ Text.ofInt index ++ " fuera de rango para el arreglo \"".toList
      ++ array ++ "\" (tamaño ".toList ++ Text.ofNat size ++ ").".toList
  | expression problem none => "Error: ".toList ++ problem.message
  | expression problem (some source) =>
    "Error: ".toList ++ problem.message ++ " en la expresión '".toList ++ source ++ "'".toList
  | refused message => message
  | integerTooLarge => "int too large to convert to float".toList
  | quotientTooLarge => "integer division result too large for a float".toList
  | infiniteInteger => "cannot convert float infinity to integer".toList
  | sizeTooLarge => "cannot fit 'int' into an index-sized integer".toList
  | outsideDomain => "math domain error".toList
  | undefinedInteger => "cannot convert float NaN to integer".toList
  | invalidInteger text =>
    "invalid literal for int() with base 10: ".toList ++ text.quoted.take 200
  | invalidReal text => "could not convert string to float: ".toList ++ text.quoted
  | tooManyDigits none =>
    ("Exceeds the limit (4300 digits) for integer string conversion; " ++
      "use sys.set_int_max_str_digits() to increase the limit").toList
  | tooManyDigits (some given) =>
    "Exceeds the limit (4300 digits) for integer string conversion: value has ".toList
      ++ Text.ofNat given
      ++ " digits; use sys.set_int_max_str_digits() to increase the limit".toList
  | nullInteger =>
    ("int() argument must be a string, a bytes-like object or a real number, " ++
      "not 'NoneType'").toList
  | arrayInteger =>
    ("int() argument must be a string, a bytes-like object or a real number, " ++
      "not 'pyarrow.lib.DoubleArray'").toList
  | unknownNodeKind kind => "Unknown trace node kind '".toList ++ kind ++ "'".toList
  | failed message => message

/-- Whether a fault is one of the language, whose wording needs no line number. -/
def isOfLanguage : Fault → Bool
  | undefinedVariable .. | undefinedArray .. | indexOutOfRange .. | expression .. | refused .. =>
    true
  | _ => false

/-- A problem with an expression whose text is known. -/
def within (source : Text) (problem : Problem) : Fault := expression problem (some source)

/-- A problem with the values of an expression. -/
def ofProblem (problem : Problem) : Fault := expression problem none

end Fault

/-- What ends well in two parts ends well in each of them. -/
theorem bind_eq_ok_iff {ε α β : Type} {x : Except ε α} {f : α → Except ε β} {b : β} :
    x >>= f = .ok b ↔ ∃ a, x = .ok a ∧ f a = .ok b := by
  cases x <;> simp [bind, Except.bind]

end Pseudocode
