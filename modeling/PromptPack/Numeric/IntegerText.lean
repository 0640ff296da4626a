import PromptPack.Fault
import PromptPack.Text.Blank
import PromptPack.Text.Letter

/-! Integers written as text: a sign, then digits of any script with single underscores between
them, white space around the whole. Bases other than ten allow their mark in front. Decimal texts
have a limited number of digits, also where an integer is turned into one. -/

namespace PromptPack.IntegerText

/-- Decimal integers with more digits than this are neither read nor written. -/
def maxDigits : Nat := 4300

/-- The information separators are no white space around a number. -/
def isMargin (c : Char) : Bool := Text.isBlank c && !(28 ≤ c.toNat && c.toNat ≤ 31)

def trimMargins (cs : List Char) : List Char :=
  Text.dropEndWhile isMargin (cs.dropWhile isMargin)

def digitValue? (c : Char) : Option Nat :=
  if 'a' ≤ c ∧ c ≤ 'f' then some (c.toNat - 87)
  else if 'A' ≤ c ∧ c ≤ 'F' then some (c.toNat - 55)
  else Text.decimalValue? c

def digitIn? (base : Nat) (c : Char) : Option Nat := (digitValue? c).filter (· < base)

def digits? (base : Nat) (read : List Nat) : List Char → Option (List Nat)
  | [] => some read.reverse
  | '_' :: c :: cs => do digits? base ((← digitIn? base c) :: read) cs
  | c :: cs => do digits? base ((← digitIn? base c) :: read) cs

/-- Bases that are powers of two have no limit. -/
def isTooLong (base : Nat) (digits : List Nat) : Bool := base == 10 && maxDigits < digits.length

def magnitude? (base : Nat) (cs : List Char) : Option Nat :=
  match cs with
  | [] => none
  | c :: rest => do
    let digits ← digits? base [← digitIn? base c] rest
    if isTooLong base digits then none
    else return digits.foldl (fun n digit => base * n + digit) 0

def isBaseMark (base : Nat) (c : Char) : Bool :=
  (base == 2 && (c == 'b' || c == 'B')) || (base == 8 && (c == 'o' || c == 'O')) ||
    (base == 16 && (c == 'x' || c == 'X'))

def dropBaseMark (base : Nat) (cs : List Char) : List Char :=
  match cs with
  | '0' :: c :: rest =>
    if isBaseMark base c then (match rest with | '_' :: digits => digits | _ => rest) else cs
  | _ => cs

def inBase? (base : Nat) (text : List Char) : Option Int :=
  match trimMargins text with
  | '-' :: cs => (magnitude? base (dropBaseMark base cs)).map fun n => -n
  | '+' :: cs => (magnitude? base (dropBaseMark base cs)).map Int.ofNat
  | cs => (magnitude? base (dropBaseMark base cs)).map Int.ofNat

def parse? (text : String) : Option Int := inBase? 10 text.toList

def isWritable (n : Int) : Bool := n.natAbs < Nat.pow 10 maxDigits

def write (n : Int) : Except Fault String :=
  if isWritable n then .ok (toString n) else .error .badValue

end PromptPack.IntegerText
