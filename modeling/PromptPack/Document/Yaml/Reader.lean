import PromptPack.Document.Yaml.Node
import PromptPack.Document.Yaml.Scalar

/-! The value of a YAML text. Of equal keys the last value wins, in the first place; entries of the
mapping itself win over merged ones, and of those the ones merged first. -/

namespace PromptPack.Yaml

namespace Node

def tag : Node → Tag
  | .scalar tag _ => tag
  | .sequence tag _ => tag
  | .mapping tag _ => tag

mutual

def text? : Node → Option String
  | .scalar _ text => some text
  | .sequence _ _ => none
  | .mapping _ entries => defaultText? entries

def defaultText? : List (Node × Node) → Option String
  | [] => none
  | (key, value) :: rest => if key.tag = .default then value.text? else defaultText? rest

end

/-- A key by itself: what stands for the value of a mapping is a text here. -/
def keyValue (key : Node) (value : Except Fault Value) : Except Fault Value := do
  let key ← match key with
    | .scalar .default text => pure (.text text)
    | _ => value
  if key.isKey then return key else throw .malformedYaml

def collect (entries : List (Value × Value)) : List (Value × Value) :=
  entries.foldl (fun found (key, value) => Value.put found key value) []

mutual

def toValue : Node → Except Fault Value
  | .scalar tag text => scalarValue tag text
  | .sequence tag items =>
    match tag with
    | .list => do return .list (← itemValues items)
    | .orderedMap | .pairs => do return .list (← pairValues items)
    | _ => .error .malformedYaml
  | .mapping tag entries =>
    match tag with
    | .map => do
      let (merged, own) ← entryValues entries
      return .map (collect (merged ++ own))
    | .set => do
      let (merged, own) ← entryValues entries
      return .set ((collect (merged ++ own)).map (·.1))
    | _ =>
      match defaultText? entries with
      | some text => scalarValue tag text
      | none => .error .malformedYaml

def itemValues : List Node → Except Fault (List Value)
  | [] => .ok []
  | item :: items => do
    let value ← toValue item
    return value :: (← itemValues items)

def pairValues : List Node → Except Fault (List Value)
  | [] => .ok []
  | .mapping _ [(key, value)] :: items => do
    let key ← toValue key
    let value ← toValue value
    return .list [key, value] :: (← pairValues items)
  | _ :: _ => .error .malformedYaml

def entryValues : List (Node × Node) → Except Fault (List (Value × Value) × List (Value × Value))
  | [] => .ok ([], [])
  | (key, value) :: rest =>
    if key.tag = .merge then do
      let found ← mergedValues value
      let (merged, own) ← entryValues rest
      return (found ++ merged, own)
    else do
      let key ← keyValue key (toValue key)
      let value ← toValue value
      let (merged, own) ← entryValues rest
      return (merged, (key, value) :: own)

/-- The entries of a mapping, or of a list of mappings in which the first ones win. -/
def mergedValues : Node → Except Fault (List (Value × Value))
  | .mapping _ entries => do
    let (merged, own) ← entryValues entries
    return merged ++ own
  | .sequence _ items => mergedItems items
  | .scalar _ _ => .error .malformedYaml

def mergedItems : List Node → Except Fault (List (Value × Value))
  | [] => .ok []
  | .mapping _ entries :: items => do
    let (merged, own) ← entryValues entries
    let others ← mergedItems items
    return others ++ (merged ++ own)
  | _ :: _ => .error .malformedYaml

end

end Node

def read (text : String) : Except Fault Value := do
  match ← Node.ofTokens (← tokens text.toList) with
  | some node => node.toValue
  | none => return .null

end PromptPack.Yaml
