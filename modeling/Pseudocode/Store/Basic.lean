import Pseudocode.Store.Variable

/-!
# The store

The variables of a program, in the order in which they were first defined. Names that differ only in
case are the same name. A new definition takes the place of the old one; variables are never
removed.

Every change of a store is one of five (`Change`), and `Store.apply` carries it out or says why it
cannot be carried out, in which case nothing changes.
-/

namespace Pseudocode

/-- The variables, in the order of their first definition. -/
structure Store where
  entries : List Variable
deriving Repr, DecidableEq

/-- A change of a store. -/
inductive Change where
  /-- Defines a variable of the type that a word names, with the value that it starts with. -/
  | declare (name type : Text)
  /-- Defines a variable. -/
  | define (name : Text) (type : VarType) (value : Value)
  /-- Defines an array of zeros. -/
  | dimension (name : Text) (size : Int)
  /-- Gives a new value to a variable. -/
  | set (name : Text) (value : Value) (hint : Bool)
  /-- Gives a new value to an element of an array. -/
  | setElement (name : Text) (index value : Value)
deriving Repr, DecidableEq

namespace Store

/-- The store without variables. -/
def empty : Store := ⟨[]⟩

/-- The variable of a name, however it is written. -/
def get? (s : Store) (name : Text) : Option Variable :=
  s.entries.find? (·.key == name.lower)

/-- Whether there is a variable of a name. -/
def contains (s : Store) (name : Text) : Bool := (s.get? name).isSome

/-- The variable of a name; `hint` asks for advice in the message if there is none. -/
def lookup (s : Store) (name : Text) (hint : Bool) : Except Fault Variable :=
  match s.get? name with
  | some v => .ok v
  | none => .error (.undefinedVariable name hint)

/-- Puts a variable into a list: in the place of the one with the same key, or at the end. -/
def insert (v : Variable) : List Variable → List Variable
  | [] => [v]
  | w :: rest => if w.key == v.key then v :: rest else w :: insert v rest

/-- Defines a variable. -/
def define (s : Store) (v : Variable) : Store := ⟨insert v s.entries⟩

/-- The largest size of an array is below this. -/
def sizeLimit : Int := Int.pow 2 63

/-- An array of zeros. -/
def zeros (name : Text) (size : Int) : Except Fault Value :=
  if size < 0 then .error (.ofProblem (.invalidSize size name))
  else if sizeLimit ≤ size then .error .sizeTooLarge
  else .ok (.array (Array.replicate size.toNat 0))

/-- The array of a name, with the name as it was first written. -/
def arrayOf (s : Store) (name : Text) : Except Fault (Variable × Array Float) :=
  match s.get? name with
  | some v => match v.value with
    | .array xs => .ok (v, xs)
    | _ => .error (.undefinedArray name)
  | none => .error (.undefinedArray name)

/-- A look-up gives the variable of the name, whatever it would say of a missing one. -/
theorem lookup_eq_ok_iff {s : Store} {name : Text} {hint : Bool} {v : Variable} :
    s.lookup name hint = .ok v ↔ s.get? name = some v := by
  rw [lookup]
  cases s.get? name <;> simp

/-- An array is found under a name exactly if the variable of the name holds it. -/
theorem arrayOf_eq_ok_iff {s : Store} {name : Text} {v : Variable} {xs : Array Float} :
    s.arrayOf name = .ok (v, xs) ↔ s.get? name = some v ∧ v.value = .array xs := by
  rw [arrayOf]
  cases s.get? name with
  | none => simp
  | some w =>
    cases hw : w.value with
    | array ys =>
      simp only [hw, Except.ok.injEq, Prod.mk.injEq, Option.some.injEq]
      constructor
      · rintro ⟨rfl, rfl⟩
        exact ⟨rfl, hw⟩
      · rintro ⟨rfl, hv⟩
        cases hw.symm.trans hv
        exact ⟨rfl, rfl⟩
    | null | bool _ | number _ | text _ =>
      simp only [hw, reduceCtorEq, Option.some.injEq, false_iff, not_and]
      rintro rfl hv
      cases hw.symm.trans hv

/-- The whole number that an index stands for. -/
def wholeIndex (array : Text) (index : Value) : Except Fault Int := do
  let refuse : Except Fault Int := do
    let shown ← index.literal
    throw (.ofProblem (.invalidIndex shown array))
  match index with
  | .number n =>
    let x ← n.toReal
    match Binary64.form x with
    | .finite _ =>
      let i ← n.truncate
      if n.equals (.int i) then return i else refuse
    | _ => refuse
  | _ => refuse

/-- The position that an index stands for in an array of the given size. -/
def position (array : Text) (size : Nat) (index : Value) : Except Fault Nat := do
  let i ← wholeIndex array index
  if 0 ≤ i ∧ i < size then return i.toNat
  else throw (.indexOutOfRange array i size)

/-- The element of an array at an index. -/
def getElement (s : Store) (name : Text) (index : Value) : Except Fault Value := do
  let (v, xs) ← s.arrayOf name
  let i ← position v.name xs.size index
  return .real (xs.getD i 0)

/-- The double that an element of an array is to become. -/
def elementValue (array : Text) (value : Value) : Except Fault Float :=
  match value.toNumber? with
  | some n => n.toReal
  | none => do
    let shown ← value.literal
    throw (.ofProblem (.nonNumericElement array shown))

/-- Carries out a change. -/
def apply (s : Store) : Change → Except Fault Store
  | .declare name type =>
    let type := VarType.named type
    .ok (s.define ⟨name, type, type.initial⟩)
  | .define name type value => .ok (s.define ⟨name, type, value⟩)
  | .dimension name size => do
    let value ← zeros name size
    return s.define ⟨name, .array, value⟩
  | .set name value hint => do
    let v ← s.lookup name hint
    return s.define { v with value }
  | .setElement name index value => do
    let (v, xs) ← s.arrayOf name
    let i ← position v.name xs.size index
    let x ← elementValue v.name value
    return s.define { v with value := .array (xs.setIfInBounds i x) }

/-- A variable that there is gets any value. -/
theorem apply_set {s : Store} {name : Text} {v : Variable} (h : s.get? name = some v)
    (value : Value) (hint : Bool) :
    s.apply (.set name value hint) = .ok (s.define { v with value }) := by
  rw [apply, lookup_eq_ok_iff.mpr h]
  rfl

/-- Whether two stores have equal variables in the same order. -/
def equals (s t : Store) : Bool :=
  s.entries.length == t.entries.length &&
    (s.entries.zip t.entries).all fun (a, b) => a.equals b

end Store

/-- A store with an observer that is told of every change: the states of the store that it was told
of, the last one first. -/
structure Observed where
  store : Store
  notices : List Store

namespace Observed

/-- Carries out a change and tells the observer of the new state. A change that cannot be carried
out is not told. -/
def apply (o : Observed) (change : Change) : Except Fault Observed := do
  let store ← o.store.apply change
  return ⟨store, store :: o.notices⟩

end Observed

end Pseudocode
