/-! Decoding UTF-8, one byte at a time. Only the shortest form of a scalar value is accepted; what
is refused is reported with its place. -/

namespace PromptPack.Text.Utf8

/-- A sequence that has begun: how many bytes are to come and the range of the next one. -/
structure Pending where
  start : Nat
  taken : Nat
  missing : Nat
  low : Nat
  high : Nat
  value : Nat
deriving DecidableEq, Repr

inductive Cause where
  | start | continuation | ended
deriving DecidableEq, Repr

/-- The bytes that cannot be decoded: the first of them, where they start and how many they are. -/
structure Malformed where
  byte : Nat
  start : Nat
  count : Nat
  cause : Cause
deriving DecidableEq, Repr

namespace Malformed

def reason (found : Malformed) : String :=
  match found.cause with
  | .start => "invalid start byte"
  | .continuation => "invalid continuation byte"
  | .ended => "unexpected end of data"

def hexByte (byte : Nat) : String :=
  String.ofList ((if byte < 16 then ['0'] else []) ++ Nat.toDigits 16 byte)

def message (found : Malformed) : String :=
  if found.count = 1 then
    s!"'utf-8' codec can't decode byte 0x{hexByte found.byte} in position {found.start}: " ++
      found.reason
  else
    s!"'utf-8' codec can't decode bytes in position {found.start}-" ++
      s!"{found.start + found.count - 1}: {found.reason}"

end Malformed

/-- The bytes to come behind a first byte, the range of the second one and the bits so far. -/
def begin? (start byte : Nat) : Option Pending :=
  if 0xC2 ≤ byte ∧ byte < 0xE0 then some ⟨start, 1, 1, 0x80, 0xBF, byte % 32⟩
  else if 0xE0 ≤ byte ∧ byte < 0xF0 then
    some ⟨start, 1, 2, if byte = 0xE0 then 0xA0 else 0x80, if byte = 0xED then 0x9F else 0xBF,
      byte % 16⟩
  else if 0xF0 ≤ byte ∧ byte < 0xF5 then
    some ⟨start, 1, 3, if byte = 0xF0 then 0x90 else 0x80, if byte = 0xF4 then 0x8F else 0xBF,
      byte % 8⟩
  else none

def Pending.advance (pending : Pending) (byte : Nat) : Pending :=
  { pending with
    taken := pending.taken + 1
    missing := pending.missing - 1
    low := 0x80
    high := 0xBF
    value := pending.value * 64 + byte % 64 }

/-- Reads the bytes from `position` on; `first` is the first byte of the sequence that has begun. -/
def decodeFrom (position first : Nat) (pending : Option Pending) (chars : List Char) :
    List Nat → Except Malformed (List Char)
  | [] =>
    match pending with
    | none => .ok chars.reverse
    | some pending => .error ⟨first, pending.start, pending.taken, .ended⟩
  | byte :: bytes =>
    match pending with
    | none =>
      if byte < 0x80 then decodeFrom (position + 1) 0 none (Char.ofNat byte :: chars) bytes
      else
        match begin? position byte with
        | some pending => decodeFrom (position + 1) byte (some pending) chars bytes
        | none => .error ⟨byte, position, 1, .start⟩
    | some pending =>
      if pending.low ≤ byte ∧ byte ≤ pending.high then
        let pending := pending.advance byte
        if pending.missing = 0 then
          decodeFrom (position + 1) 0 none (Char.ofNat pending.value :: chars) bytes
        else decodeFrom (position + 1) first (some pending) chars bytes
      else .error ⟨first, pending.start, pending.taken, .continuation⟩

def decode (bytes : List Nat) : Except Malformed (List Char) := decodeFrom 0 0 none [] bytes

end PromptPack.Text.Utf8
