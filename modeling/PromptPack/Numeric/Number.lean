import PromptPack.Numeric.Binary64

/-! A number as documents and callers give it: an integer of any size or a double. Comparison is
exact between the two kinds, so it never rounds an integer first. -/

namespace PromptPack

inductive Number where
  | int (value : Int)
  | float (value : Binary64)
deriving DecidableEq, Repr, Inhabited

namespace Number

/-- A place on the extended line: which end, if any, and else the exact value. -/
def place? : Number → Option (Int × Rat)
  | .int n => some (0, n)
  | .float (.infinite negative) => some (if negative then -1 else 1, 0)
  | .float x => x.toRat?.map fun q => (0, q)

def lt (a b : Number) : Bool :=
  match a.place?, b.place? with
  | some (s, p), some (t, q) => s < t || (s == t && decide (p < q))
  | _, _ => false

def same (a b : Number) : Bool :=
  match a.place?, b.place? with
  | some p, some q => p == q
  | _, _ => false

def le (a b : Number) : Bool := a.lt b || a.same b

def max (a b : Number) : Number := if a.lt b then b else a

/-- The nearest double; an integer past the largest double has none. -/
def toBinary64? : Number → Option Binary64
  | .int n => Binary64.ofInt? n
  | .float x => some x

/-- The quotient by a nonzero number. Two integers are divided exactly and rounded once; any other
pair is first rounded to doubles. -/
def quotient? : Number → Number → Option Binary64
  | .int n, .int d => Binary64.quotient? n d
  | a, b => do return (← a.toBinary64?).div (← b.toBinary64?)

end Number

end PromptPack
