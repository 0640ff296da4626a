import PromptPack.Fault
import PromptPack.Numeric.Number

/-! The values of configuration documents. Documents are untyped: any field can hold any value, so
their truth, their equality and their use as a number or a mapping are defined for all of them. -/

namespace PromptPack

inductive Value where
  | null
  | bool (value : Bool)
  | int (value : Int)
  | float (value : Binary64)
  | text (value : String)
  | list (items : List Value)
  | map (entries : List (Value × Value))
  /-- A date or a time, by its text. -/
  | moment (iso : String)
  | bytes (data : List Nat)
  | set (members : List Value)
deriving Repr, Inhabited

namespace Value

def toNumber? : Value → Option Number
  | .bool b => some (.int b.toNat)
  | .int n => some (.int n)
  | .float x => some (.float x)
  | _ => none

def truthy : Value → Bool
  | .null => false
  | .bool b => b
  | .int n => n != 0
  | .float x => !x.isZero
  | .text s => !s.isEmpty
  | .list items => !items.isEmpty
  | .map entries => !entries.isEmpty
  | .moment _ => true
  | .bytes data => !data.isEmpty
  | .set members => !members.isEmpty

mutual

/-- Equality of documents: numbers by value, mappings and sets without regard to order. -/
def same : Value → Value → Bool
  | .null, .null => true
  | .text s, .text t => s == t
  | .moment s, .moment t => s == t
  | .bytes a, .bytes b => a == b
  | .list xs, .list ys => sameItems xs ys
  | .map xs, .map ys => xs.length == ys.length && coversEntries xs ys
  | .set xs, .set ys => xs.length == ys.length && coversMembers xs ys
  | a, b =>
    match a.toNumber?, b.toNumber? with
    | some m, some n => m.same n
    | _, _ => false

def sameItems : List Value → List Value → Bool
  | [], [] => true
  | x :: xs, y :: ys => same x y && sameItems xs ys
  | _, _ => false

def coversEntries : List (Value × Value) → List (Value × Value) → Bool
  | [], _ => true
  | (key, value) :: rest, ys =>
    ys.any (fun (other, found) => same key other && same value found) && coversEntries rest ys

def coversMembers : List Value → List Value → Bool
  | [], _ => true
  | x :: xs, ys => ys.any (fun y => same x y) && coversMembers xs ys

end

def isKey : Value → Bool
  | .list _ | .map _ | .set _ => false
  | _ => true

def find? (entries : List (Value × Value)) (key : Value) : Option Value :=
  (entries.find? fun entry => entry.1.same key).map (·.2)

def field? (entries : List (Value × Value)) (name : String) : Option Value :=
  find? entries (.text name)

/-- Puts an entry in the place of an equal key, which stays, or at the end. -/
def put (entries : List (Value × Value)) (key value : Value) : List (Value × Value) :=
  match entries with
  | [] => [(key, value)]
  | entry :: rest =>
    if entry.1.same key then (entry.1, value) :: rest else entry :: put rest key value

def characters (s : String) : List Value := s.toList.map fun c => .text (String.ofList [c])

/-- The items that a value has when it is gone through; a mapping gives its keys. -/
def items? : Value → Option (List Value)
  | .text s => some (characters s)
  | .list items => some items
  | .map entries => some (entries.map (·.1))
  | .bytes data => some (data.map fun byte => .int (Int.ofNat byte))
  | .set members => some members
  | _ => none

def toEntry (pair : Value) : Except Fault (Value × Value) :=
  match pair.items? with
  | none => .error .wrongType
  | some [key, value] => if key.isKey then .ok (key, value) else .error .wrongType
  | some _ => .error .badValue

/-- A value as a mapping: a mapping itself, or items that are pairs. -/
def toEntries : Value → Except Fault (List (Value × Value))
  | .map entries => .ok entries
  | value =>
    match value.items? with
    | none => .error .wrongType
    | some pairs =>
      pairs.foldlM (fun entries pair => do
        let (key, value) ← toEntry pair
        return put entries key value) []

end Value

end PromptPack
