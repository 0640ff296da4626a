import PromptPack.Numeric.Binary64

/-! Decimal text of doubles: reading a decimal, writing a fixed number of places, and writing the
fewest digits that read back. What differs between formats is one `FloatStyle` record each. -/

namespace PromptPack

namespace Decimal

def fraction (n : Nat) (k : Int) : Nat × Nat :=
  if 0 ≤ k then (n * Nat.pow 10 k.toNat, 1) else (n, Nat.pow 10 (-k).toNat)

/-- The double nearest to `± n · 10 ^ k`. Exponents far outside the range are settled at once. -/
def toBinary64 (negative : Bool) (n : Nat) (k : Int) : Binary64 :=
  if n = 0 then .zero negative
  else if 400 < k then .infinite negative
  else if k + n.log2 < -400 then .zero negative
  else
    let (a, b) := fraction n k
    .ofRatio negative a b

def digits (n : Nat) : List Char := Nat.toDigits 10 n

def padLeft (width : Nat) (ds : List Char) : List Char :=
  List.replicate (width - ds.length) '0' ++ ds

/-- The value with the given number of places, a half going to the even neighbour. -/
def fixedPlaces (places : Nat) : Binary64 → String
  | .nan => "nan"
  | .infinite negative => if negative then "-inf" else "inf"
  | .finite negative m e =>
    let q := Binary64.scale m e
    let units := Binary64.divEven (q.num.natAbs * Nat.pow 10 places) q.den
    let ds := padLeft (places + 1) (digits units)
    let whole := ds.take (ds.length - places)
    let part := ds.drop (ds.length - places)
    String.ofList ((if negative then ['-'] else []) ++ whole ++
      (if places = 0 then [] else '.' :: part))

/-- The power of ten at or below a positive fraction; the guess from the binade is off by one at
most. -/
def decade (a b : Nat) : Int :=
  let atMost (k : Int) : Bool :=
    let (p, q) := fraction 1 k
    p * b ≤ a * q
  let guess := Binary64.binade a b * 1233 / 4096
  if atMost (guess + 1) then guess + 1
  else if atMost guess then guess
  else guess - 1

/-- The multiples of `10 ^ k` next to `a / b` that read back as the given number, the nearest
first. -/
def neighbours (x : Binary64) (a b : Nat) (k : Int) : List Nat :=
  let (p, q) := fraction 1 k
  let n := a * q
  let d := b * p
  let low := n / d
  let upFirst := if 2 * (n % d) = d then low % 2 = 1 else d < 2 * (n % d)
  (if upFirst then [low + 1, low] else [low, low + 1]).filter fun c => toBinary64 false c k == x

def shortestFrom (x : Binary64) (a b : Nat) (top : Int) : Nat → Nat → Nat × Int
  | _, 0 => (0, 0)
  | precision, remaining + 1 =>
    let k := top - precision
    match neighbours x a b k with
    | c :: _ => (c, k)
    | [] => shortestFrom x a b top (precision + 1) remaining

/-- The digits and the power of ten of the shortest decimal of a positive finite number; seventeen
digits always suffice. -/
def shortest (m : Nat) (e : Int) : Nat × Int :=
  let q := Binary64.scale m e
  let a := q.num.natAbs
  shortestFrom (.finite false m e) a q.den (decade a q.den) 0 17

end Decimal

/-- How a format spells doubles: positional from `10 ^ smallest` up to, and without,
`10 ^ largest`, and whether a point is written before an exponent too. -/
structure FloatStyle where
  nan : String
  infinity : String
  negativeInfinity : String
  pointBeforeExponent : Bool
  smallest : Int := -4
  largest : Int := 16
deriving Repr

namespace FloatStyle

def exponentText (k : Int) : List Char :=
  (if k < 0 then '-' else '+') :: Decimal.padLeft 2 (Decimal.digits k.natAbs)

/-- Digits with their leading digit at `10 ^ top`. -/
def layout (style : FloatStyle) (ds : List Char) (top : Int) : List Char :=
  if style.smallest ≤ top ∧ top < style.largest then
    if top < 0 then '0' :: '.' :: List.replicate (-top - 1).toNat '0' ++ ds
    else
      let whole := top.toNat + 1
      let shown := ds ++ List.replicate (whole - ds.length) '0'
      let part := shown.drop whole
      shown.take whole ++ '.' :: (if part.isEmpty then ['0'] else part)
  else
    let head := ds.take 1
    let part := ds.drop 1
    let point :=
      if part.isEmpty then (if style.pointBeforeExponent then ['.', '0'] else []) else '.' :: part
    head ++ point ++ 'e' :: exponentText top

def trimZeros (ds : List Char) : List Char :=
  let kept := (ds.reverse.dropWhile (· == '0')).reverse
  if kept.isEmpty then ['0'] else kept

def text (style : FloatStyle) : Binary64 → String
  | .nan => style.nan
  | .infinite negative => if negative then style.negativeInfinity else style.infinity
  | .finite negative m e =>
    let body :=
      if m = 0 then style.layout ['0'] 0
      else
        let (c, k) := Decimal.shortest m e
        let ds := Decimal.digits c
        style.layout (trimZeros ds) (k + ds.length - 1)
    String.ofList ((if negative then ['-'] else []) ++ body)

end FloatStyle

end PromptPack
