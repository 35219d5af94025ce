import Pseudocode.Text.Quoted

/-!
# UTF-8

Bytes are read as text one after the other. The first byte of a sequence says how many more belong
to it and which values the second one may have, so that no character has two forms and no surrogate
is read. Reading stops at the first byte that does not fit, with the positions of the bytes that
were taken for one character.
-/

namespace Pseudocode.Utf8

/-- The number of bytes that a text takes. -/
def size (t : Text) : Nat := t.foldr (fun c n => c.utf8Size + n) 0

/-- Why bytes are no character. -/
inductive Cause where
  /-- No sequence starts with this byte. -/
  | invalidStart
  /-- The byte behind these does not go on with the sequence. -/
  | invalidContinuation
  /-- The bytes end within a sequence. -/
  | truncated
deriving Repr, DecidableEq

/-- Bytes that are no text: the first byte of the sequence at fault, its position, how many bytes
were taken, and why they are no character. -/
structure Malformed where
  lead : UInt8
  start : Nat
  count : Nat
  cause : Cause
deriving Repr, DecidableEq

/-- The message about a cause. -/
def Cause.message : Cause → Text
  | invalidStart => "invalid start byte".toList
  | invalidContinuation => "invalid continuation byte".toList
  | truncated => "unexpected end of data".toList

/-- The message about bytes that are no text. -/
def Malformed.message (m : Malformed) : Text :=
  let place :=
    if m.count ≤ 1 then
      "byte 0x".toList ++ Text.hexDigits 2 m.lead.toNat ++ " in position ".toList ++
        Text.ofNat m.start
    else
      "bytes in position ".toList ++ Text.ofNat m.start ++ '-' ::
        Text.ofNat (m.start + m.count - 1)
  "'utf-8' codec can't decode ".toList ++ place ++ ": ".toList ++ m.cause.message

/-- A sequence of which the first bytes are read. -/
structure Opened where
  lead : UInt8
  start : Nat
  /-- How many bytes are read. -/
  count : Nat
  /-- How many bytes are missing after the next one. -/
  missing : Nat
  /-- The least and the greatest value of the next byte. -/
  low : UInt8
  high : UInt8
  /-- The code point, as far as it is read. -/
  code : Nat

/-- The sequence that a byte beyond ASCII opens. -/
def open? (b : UInt8) (position : Nat) : Option Opened :=
  if b < 0xC2 then none
  else if b < 0xE0 then some ⟨b, position, 1, 0, 0x80, 0xBF, b.toNat - 0xC0⟩
  else if b < 0xF0 then
    let low := if b = 0xE0 then 0xA0 else 0x80
    let high := if b = 0xED then 0x9F else 0xBF
    some ⟨b, position, 1, 1, low, high, b.toNat - 0xE0⟩
  else if b < 0xF5 then
    let low := if b = 0xF0 then 0x90 else 0x80
    let high := if b = 0xF4 then 0x8F else 0xBF
    some ⟨b, position, 1, 2, low, high, b.toNat - 0xF0⟩
  else none

/-- A sequence at which reading stops. -/
def Opened.fail (o : Opened) (cause : Cause) : Malformed := ⟨o.lead, o.start, o.count, cause⟩

/-- The text of the bytes from a position on, in front of which a sequence may be open. -/
def decodeFrom (position : Nat) : Option Opened → List UInt8 → Except Malformed Text
  | none, [] => .ok []
  | some o, [] => .error (o.fail .truncated)
  | none, b :: rest =>
    if b < 0x80 then do
      return Char.ofNat b.toNat :: (← decodeFrom (position + 1) none rest)
    else match open? b position with
      | some o => decodeFrom (position + 1) (some o) rest
      | none => .error ⟨b, position, 1, .invalidStart⟩
  | some o, b :: rest =>
    if b < o.low || o.high < b then .error (o.fail .invalidContinuation)
    else
      let code := o.code * 64 + (b.toNat - 0x80)
      match o.missing with
      | 0 => do return Char.ofNat code :: (← decodeFrom (position + 1) none rest)
      | missing + 1 =>
        decodeFrom (position + 1)
          (some ⟨o.lead, o.start, o.count + 1, missing, 0x80, 0xBF, code⟩) rest

/-- The text that bytes stand for. -/
def decode (bytes : List UInt8) : Except Malformed Text := decodeFrom 0 none bytes

end Pseudocode.Utf8
