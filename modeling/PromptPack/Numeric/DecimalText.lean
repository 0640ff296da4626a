import PromptPack.Numeric.Decimal
import PromptPack.Numeric.IntegerText
import PromptPack.Text.LowerCase

/-! Doubles written as text: a sign, digits with an optional point and exponent, or the name of a
number that is not finite. -/

namespace PromptPack.DecimalText

open IntegerText (digitIn? trimMargins)

def value (digits : List Nat) : Nat := digits.foldl (fun n digit => 10 * n + digit) 0

def leadingDigits : List Char → List Nat × List Char
  | [] => ([], [])
  | c :: cs =>
    match digitIn? 10 c with
    | some digit =>
      let (digits, rest) := leadingDigits cs
      (digit :: digits, rest)
    | none => ([], c :: cs)

def exponent? (cs : List Char) : Option Int :=
  match cs with
  | [] => some 0
  | e :: rest =>
    if e = 'e' ∨ e = 'E' then
      let (negative, body) : Bool × List Char :=
        match rest with
        | '-' :: body => (true, body)
        | '+' :: body => (false, body)
        | _ => (false, rest)
      match leadingDigits body with
      | (first :: digits, []) =>
        let n : Int := value (first :: digits)
        some (if negative then -n else n)
      | _ => none
    else none

def finite? (negative : Bool) (cs : List Char) : Option Binary64 := do
  let (whole, rest) := leadingDigits cs
  let (part, rest) :=
    match rest with
    | '.' :: rest => leadingDigits rest
    | _ => ([], rest)
  if whole.isEmpty && part.isEmpty then none
  else
    let exponent ← exponent? rest
    return Decimal.toBinary64 negative (value (whole ++ part)) (exponent - part.length)

def unsigned? (negative : Bool) (cs : List Char) : Option Binary64 :=
  let name := String.ofList (Text.lower cs)
  if name = "inf" ∨ name = "infinity" then some (.infinite negative)
  else if name = "nan" then some .nan
  else finite? negative cs

def parse? (cs : List Char) : Option Binary64 :=
  match trimMargins cs with
  | '-' :: cs => unsigned? true cs
  | '+' :: cs => unsigned? false cs
  | cs => unsigned? false cs

end PromptPack.DecimalText
