import PromptPack.Text.Blank

/-! Dates and times in the text of scalars: a date, or a date and a time with an optional zone. -/

namespace PromptPack.Yaml

/-- A distance from the zero zone; the sign is kept apart from the amounts. -/
structure Zone where
  negative : Bool
  hours : Nat
  minutes : Nat
deriving DecidableEq, Repr

structure Time where
  hour : Nat
  minute : Nat
  second : Nat
  fraction : List Char
  zone : Option Zone
deriving DecidableEq, Repr

structure Moment where
  year : Nat
  month : Nat
  day : Nat
  time : Option Time
  fullDate : Bool
deriving DecidableEq, Repr

namespace Moment

def value (digits : List Char) : Nat := digits.foldl (fun n c => 10 * n + (c.toNat - 48)) 0

def exactly? (n : Nat) (cs : List Char) : Option (Nat × List Char) :=
  let digits := cs.take n
  if digits.length = n && digits.all Char.isDigit then some (value digits, cs.drop n) else none

def oneOrTwo? (cs : List Char) : Option (Nat × Bool × List Char) :=
  match exactly? 2 cs with
  | some (n, rest) => some (n, true, rest)
  | none => (exactly? 1 cs).map fun (n, rest) => (n, false, rest)

def mark? (c : Char) : List Char → Option (List Char)
  | d :: rest => if d = c then some rest else none
  | [] => none

def isInset (c : Char) : Bool := c == ' ' || c == '\t'

def timeStart? (cs : List Char) : Option (List Char) :=
  match cs with
  | c :: rest =>
    if c = 'T' ∨ c = 't' then some rest
    else if isInset c then some (cs.dropWhile isInset)
    else none
  | [] => none

def signedZone? (negative : Bool) (cs : List Char) : Option Zone := do
  let (hours, _, rest) ← oneOrTwo? cs
  match rest with
  | [] => return ⟨negative, hours, 0⟩
  | _ => do
    let (minutes, rest) ← exactly? 2 (← mark? ':' rest)
    if rest.isEmpty then return ⟨negative, hours, minutes⟩ else none

def zone? (cs : List Char) : Option (Option Zone) :=
  match cs with
  | [] => some none
  | _ =>
    match cs.dropWhile isInset with
    | ['Z'] => some (some ⟨false, 0, 0⟩)
    | '+' :: rest => (signedZone? false rest).map some
    | '-' :: rest => (signedZone? true rest).map some
    | _ => none

def time? (cs : List Char) : Option Time := do
  let (hour, _, rest) ← oneOrTwo? cs
  let (minute, rest) ← exactly? 2 (← mark? ':' rest)
  let (second, rest) ← exactly? 2 (← mark? ':' rest)
  let (fraction, rest) :=
    match rest with
    | '.' :: rest => (rest.takeWhile Char.isDigit, rest.dropWhile Char.isDigit)
    | _ => ([], rest)
  return ⟨hour, minute, second, fraction, ← zone? rest⟩

def parse? (cs : List Char) : Option Moment := do
  let (year, rest) ← exactly? 4 cs
  let (month, fullMonth, rest) ← oneOrTwo? (← mark? '-' rest)
  let (day, fullDay, rest) ← oneOrTwo? (← mark? '-' rest)
  match rest with
  | [] => return ⟨year, month, day, none, fullMonth && fullDay⟩
  | _ => return ⟨year, month, day, some (← time? (← timeStart? rest)), fullMonth && fullDay⟩

/-- Whether a scalar without a tag reads as a moment: a date alone has to be written in full. -/
def isImplicit (cs : List Char) : Bool :=
  (parse? cs).any fun m => m.time.isSome || m.fullDate

def isLeap (year : Nat) : Bool := year % 4 == 0 && (year % 100 != 0 || year % 400 == 0)

def daysIn (year month : Nat) : Nat :=
  if month = 2 then (if isLeap year then 29 else 28)
  else if month = 4 ∨ month = 6 ∨ month = 9 ∨ month = 11 then 30
  else 31

def Zone.isValid (zone : Zone) : Bool := zone.hours * 60 + zone.minutes < 24 * 60

def isValid (m : Moment) : Bool :=
  1 ≤ m.year && 1 ≤ m.month && m.month ≤ 12 && 1 ≤ m.day && m.day ≤ daysIn m.year m.month &&
    m.time.all fun t => t.hour < 24 && t.minute < 60 && t.second < 60 && t.zone.all Zone.isValid

def pad (width n : Nat) : String :=
  let ds := Nat.toDigits 10 n
  String.ofList (List.replicate (width - ds.length) '0' ++ ds)

def zoneText (zone : Zone) : String :=
  let sign := if zone.negative && 0 < zone.hours + zone.minutes then "-" else "+"
  let minutes := zone.hours * 60 + zone.minutes
  sign ++ pad 2 (minutes / 60) ++ ":" ++ pad 2 (minutes % 60)

/-- Microseconds; further digits do not count. -/
def micros (fraction : List Char) : Nat :=
  let digits := fraction.take 6
  value (digits ++ List.replicate (6 - digits.length) '0')

def timeText (t : Time) : String :=
  let part := if micros t.fraction = 0 then "" else "." ++ pad 6 (micros t.fraction)
  pad 2 t.hour ++ ":" ++ pad 2 t.minute ++ ":" ++ pad 2 t.second ++ part ++
    ((t.zone.map zoneText).getD "")

def text (m : Moment) : String :=
  let date := pad 4 m.year ++ "-" ++ pad 2 m.month ++ "-" ++ pad 2 m.day
  match m.time with
  | none => date
  | some t => date ++ " " ++ timeText t

end Moment

end PromptPack.Yaml
