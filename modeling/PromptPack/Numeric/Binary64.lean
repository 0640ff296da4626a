/-! Double-precision numbers as exact data. A finite number is a sign, a significand and a power of
two, so each operation is the exact rational result rounded once: to the nearest number of the
grid, a tie to the even significand. No machine float is involved, and nothing here is opaque. -/

namespace PromptPack

inductive Binary64 where
  | nan
  | infinite (negative : Bool)
  | finite (negative : Bool) (significand : Nat) (exponent : Int)
deriving DecidableEq, Repr, Inhabited

namespace Binary64

/-- The exponent of the subnormal grid, the finest one. -/
def minExponent : Int := -1074

def maxExponent : Int := 971

/-- The leading bit of a normal significand, the fifty-third; the encoding leaves it out. -/
def hiddenBit : Nat := 0x10000000000000

def zero (negative : Bool) : Binary64 := .finite negative 0 minExponent

/-- `n / d` to the nearest integer, a tie to the even one. -/
def divEven (n d : Nat) : Nat :=
  let q := n / d
  let r := n % d
  if 2 * r < d then q
  else if d < 2 * r then q + 1
  else if q % 2 = 0 then q
  else q + 1

def binade (n d : Nat) : Int :=
  let k : Int := n.log2 - d.log2
  let reached := if 0 ≤ k then d * Nat.pow 2 k.toNat ≤ n else d ≤ n * Nat.pow 2 (-k).toNat
  if reached then k else k - 1

def significandAt (n d : Nat) (e : Int) : Nat :=
  if 0 ≤ e then divEven n (d * Nat.pow 2 e.toNat) else divEven (n * Nat.pow 2 (-e).toNat) d

/-- The number nearest to `± n / d`; past the largest finite number it is infinite. -/
def ofRatio (negative : Bool) (n d : Nat) : Binary64 :=
  if n = 0 ∨ d = 0 then zero negative
  else
    let e := max (binade n d - 52) minExponent
    let m := significandAt n d e
    let (m, e) := if m = 2 * hiddenBit then (hiddenBit, e + 1) else (m, e)
    if maxExponent < e then .infinite negative else .finite negative m e

def ofRat (q : Rat) : Binary64 := ofRatio (q < 0) q.num.natAbs q.den

def ofInt (n : Int) : Binary64 := ofRatio (n < 0) n.natAbs 1

def scale (m : Int) (e : Int) : Rat :=
  if 0 ≤ e then ((m * (Nat.pow 2 e.toNat : Nat) : Int) : Rat) else mkRat m (Nat.pow 2 (-e).toNat)

def toRat? : Binary64 → Option Rat
  | .finite negative m e => some (scale (if negative then -(m : Int) else m) e)
  | _ => none

def isNegative : Binary64 → Bool
  | .nan => false
  | .infinite negative => negative
  | .finite negative _ _ => negative

def isZero : Binary64 → Bool
  | .finite _ m _ => m = 0
  | _ => false

/-- The integer, when it is a finite number after rounding. -/
def ofInt? (n : Int) : Option Binary64 :=
  match ofInt n with
  | .infinite _ => none
  | x => some x

/-- An exact sum is zero only with the sign both terms share. -/
def add : Binary64 → Binary64 → Binary64
  | .nan, _ | _, .nan => .nan
  | .infinite s, .infinite t => if s = t then .infinite s else .nan
  | .infinite s, .finite .. => .infinite s
  | .finite .., .infinite t => .infinite t
  | .finite s m e, .finite t n f =>
    let q := scale (if s then -(m : Int) else m) e + scale (if t then -(n : Int) else n) f
    if q = 0 then zero (s && t) else ofRat q

def mul : Binary64 → Binary64 → Binary64
  | .nan, _ | _, .nan => .nan
  | .infinite s, y => if y.isZero then .nan else .infinite (s != y.isNegative)
  | x, .infinite t => if x.isZero then .nan else .infinite (x.isNegative != t)
  | .finite s m e, .finite t n f =>
    let q := scale (m * n : Nat) (e + f)
    ofRatio (s != t) q.num.natAbs q.den

def div : Binary64 → Binary64 → Binary64
  | .nan, _ | _, .nan => .nan
  | .infinite _, .infinite _ => .nan
  | .infinite s, .finite t _ _ => .infinite (s != t)
  | .finite s _ _, .infinite t => zero (s != t)
  | .finite s m e, .finite t n f =>
    if n = 0 then (if m = 0 then .nan else .infinite (s != t))
    else
      let q := scale m (e - f) / n
      ofRatio (s != t) q.num.natAbs q.den

/-- The correctly rounded quotient of two integers, unless it is too large. -/
def quotient? (n d : Int) : Option Binary64 :=
  match ofRatio ((n < 0) != (d < 0)) n.natAbs d.natAbs with
  | .infinite _ => none
  | x => some x

def half : Binary64 := .finite false hiddenBit (-53)

def floor? (x : Binary64) : Option Int := x.toRat?.map Rat.floor

def ceil? (x : Binary64) : Option Int := x.toRat?.map Rat.ceil

def truncate? (x : Binary64) : Option Int :=
  x.toRat?.map fun q => if q < 0 then q.ceil else q.floor

/-! The interchange encoding: a sign bit, eleven exponent bits, fifty-two fraction bits. -/

def signBit : Nat := 0x8000000000000000

def ofBits (bits : Nat) : Binary64 :=
  let negative := bits.testBit 63
  let field := (bits >>> 52) % 2048
  let fraction := bits % hiddenBit
  if field = 2047 then (if fraction = 0 then .infinite negative else .nan)
  else if field = 0 then .finite negative fraction minExponent
  else .finite negative (hiddenBit + fraction) (minExponent + field - 1)

def toBits? : Binary64 → Option Nat
  | .nan => none
  | .infinite negative => some ((if negative then signBit else 0) + 2047 * hiddenBit)
  | .finite negative m e =>
    let sign := if negative then signBit else 0
    if m < hiddenBit then some (sign + m)
    else some (sign + (e - minExponent + 1).toNat * hiddenBit + (m - hiddenBit))

end Binary64

end PromptPack
