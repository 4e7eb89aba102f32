import Srvlog.Library.Text

/-! Base64 as Java's basic decoder reads it: the padding may be missing, and nothing may
follow it. -/
namespace Srvlog.Library

def base64Value (ch : Char) : Option Nat :=
  if ch.isUpper then some (ch.toNat - 'A'.toNat)
  else if ch.isLower then some (ch.toNat - 'a'.toNat + 26)
  else if ch.isDigit then some (ch.toNat - '0'.toNat + 52)
  else if ch = '+' then some 62
  else if ch = '/' then some 63
  else none

/-- The bytes of the last characters, two or three of them. -/
def decodeLast (t : Text) : Option (List UInt8) := do
  match ← t.mapM base64Value with
  | [a, b] => return [UInt8.ofNat (a * 4 + b / 16)]
  | [a, b, c] => return [UInt8.ofNat (a * 4 + b / 16), UInt8.ofNat (b * 16 + c / 4)]
  | _ => none

/-- Four characters at a time. -/
def decodeBase64 : Text → Option (List UInt8)
  | [] => some []
  | a :: b :: c :: d :: rest =>
    if c = '=' ∨ d = '=' then
      if rest ≠ [] then none
      else if c = '=' then (if d = '=' then decodeLast [a, b] else none)
      else decodeLast [a, b, c]
    else do
      let bytes ← decodeLast [a, b, c]
      let lastValue ← base64Value d
      let value ← base64Value c
      let decoded ← decodeBase64 rest
      return bytes ++ UInt8.ofNat (value * 64 + lastValue) :: decoded
  | t => decodeLast t

example : decodeBase64 ['T', 'W', 'F', 'u'] = some [77, 97, 110] := by decide
example : decodeBase64 ['T', 'Q', '=', '='] = some [77] ∧ decodeBase64 ['T', 'Q'] = some [77] := by decide
example : decodeBase64 ['T', 'Q', '='] = none ∧ decodeBase64 ['T'] = none := by decide

end Srvlog.Library
