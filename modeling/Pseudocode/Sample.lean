import Pseudocode.Text.Basic

/-!
# A sample program
-/

namespace Pseudocode

/-- A program that asks for an age and says whether it is that of an adult. -/
def sampleSource : Text :=
  ("Algoritmo condicionales\n" ++
    "    Definir edad Como Entero;\n" ++
    "    Escribir \"Digite su edad\";\n" ++
    "    Leer edad;\n" ++
    "\n" ++
    "    Si edad > 18 Entonces\n" ++
    "        Escribir \"Usted es mayor de edad\";\n" ++
    "    SiNo\n" ++
    "        Escribir \"Usted es menor de edad\";\n" ++
    "    FinSi\n" ++
    "FinAlgoritmo").toList

end Pseudocode
