/-! Text as bytes in UTF-8, and the faults of bytes that are no such text. -/

namespace SchemaClasses

/-- Why bytes are no text in UTF-8. -/
structure TextFault where
  /-- The number of bytes in front that are text. -/
  validBytes : Nat
  /-- How many bytes the fault takes; none where the text breaks off. -/
  length : Option Nat
deriving DecidableEq, Repr

/-- The fault in words. -/
def TextFault.message (fault : TextFault) : String :=
  match fault.length with
  | some length =>
    "invalid utf-8 sequence of " ++ toString length ++ " bytes from index "
      ++ toString fault.validBytes
  | none => "incomplete utf-8 byte sequence from index " ++ toString fault.validBytes

namespace Utf8

/-- The range of the second byte of a character by its first byte, and the number of bytes behind
the first one. -/
def continuation? (first : Nat) : Option (Nat × Nat × Nat) :=
  if 0xC2 ≤ first ∧ first ≤ 0xDF then some (0x80, 0xBF, 1)
  else if first = 0xE0 then some (0xA0, 0xBF, 2)
  else if first = 0xED then some (0x80, 0x9F, 2)
  else if 0xE1 ≤ first ∧ first ≤ 0xEF then some (0x80, 0xBF, 2)
  else if first = 0xF0 then some (0x90, 0xBF, 3)
  else if 0xF1 ≤ first ∧ first ≤ 0xF3 then some (0x80, 0xBF, 3)
  else if first = 0xF4 then some (0x80, 0x8F, 3)
  else none

/-- The bytes behind those that continue a character, of which the first must lie in a range, or
how many bytes of it there are before it goes wrong; `none` where the bytes end. -/
def behindCharacter : (count : Nat) → (low high taken : Nat) → List Nat →
    Except (Option Nat) (List Nat)
  | 0, _, _, _, rest => .ok rest
  | _ + 1, _, _, _, [] => .error none
  | count + 1, low, high, taken, byte :: rest =>
    if low ≤ byte ∧ byte ≤ high then behindCharacter count 0x80 0xBF (taken + 1) rest
    else .error (some taken)

/-- The first fault of some bytes as text, if there is one; `steps` bounds the characters. -/
def faultFrom? : (steps position : Nat) → List Nat → Option TextFault
  | 0, _, _ => none
  | _ + 1, _, [] => none
  | steps + 1, position, first :: rest =>
    if first < 0x80 then faultFrom? steps (position + 1) rest
    else match continuation? first with
      | none => some ⟨position, some 1⟩
      | some (low, high, count) =>
        match behindCharacter count low high 1 rest with
        | .ok rest => faultFrom? steps (position + 1 + count) rest
        | .error length => some ⟨position, length⟩

/-- The characters of bytes without a fault. -/
def charactersOf (bytes : List Nat) : String :=
  (String.fromUTF8? (ByteArray.mk (bytes.map UInt8.ofNat).toArray)).getD ""

/-- The text that bytes encode. -/
def decode (bytes : List Nat) : Except TextFault String :=
  match faultFrom? (bytes.length + 1) 0 bytes with
  | some fault => .error fault
  | none => .ok (charactersOf bytes)

/-- The text that bytes encode, with a replacement character in place of each fault; `steps` bounds
the faults. -/
def repaired : (steps : Nat) → List Nat → String
  | 0, _ => ""
  | steps + 1, bytes =>
    match faultFrom? (bytes.length + 1) 0 bytes with
    | none => charactersOf bytes
    | some fault =>
      let behind := match fault.length with
        | some length => repaired steps (bytes.drop (fault.validBytes + length))
        | none => ""
      charactersOf (bytes.take fault.validBytes) ++ "\ufffd" ++ behind

end Utf8

end SchemaClasses
