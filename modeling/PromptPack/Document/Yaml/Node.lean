import PromptPack.Document.Yaml.Tag
import PromptPack.Document.Yaml.Token

/-! The tree that a list of tokens stands for. Aliases are replaced by the node they name, which
has to come first. A text holds one document at most. -/

namespace PromptPack.Yaml

inductive Node where
  | scalar (tag : Tag) (text : String)
  | sequence (tag : Tag) (items : List Node)
  | mapping (tag : Tag) (entries : List (Node × Node))
deriving Repr

namespace Node

def empty : Node := .scalar .null ""

structure State where
  tokens : List Token
  anchors : List (String × Node) := []
  handles : List (String × String) := []

abbrev Parser := StateT State (Except Fault)

def malformed {α : Type} : Parser α := throw Fault.malformedYaml

def peek : Parser (Option Token) := do return (← get).tokens.head?

def skip : Parser Unit := modify fun s => { s with tokens := s.tokens.drop 1 }

def expect (token : Token) : Parser Unit := do
  if (← peek) == some token then skip else malformed

def isNext (tokens : List Token) : Parser Bool := do
  return (← peek).any tokens.contains

def skipIf (token : Token) : Parser Bool := do
  if ← isNext [token] then skip; return true else return false

structure Properties where
  anchor : Option String := none
  tag : Option TagName := none

def properties : Parser Properties := do
  match ← peek with
  | some (.anchor name) =>
    skip
    match ← peek with
    | some (.tag tag) => skip; return ⟨some name, some tag⟩
    | _ => return ⟨some name, none⟩
  | some (.tag tag) =>
    skip
    match ← peek with
    | some (.anchor name) => skip; return ⟨some name, some tag⟩
    | _ => return ⟨none, some tag⟩
  | _ => return {}

/-- The address of a tag; a lone exclamation mark stands for none. -/
def address (name : TagName) : Parser (Option String) := do
  match name.handle with
  | none => return if name.suffix = "!" then none else some name.suffix
  | some handle =>
    match (← get).handles.find? fun (known, _) => known == handle with
    | some (_, expansion) =>
      let full := expansion ++ name.suffix
      return if full = "!" then none else some full
    | none => malformed

def tagOr (given : Option String) (otherwise : Tag) : Tag := (given.map Tag.ofUri).getD otherwise

/-- Binds an anchor, which must not be bound before or inside the node. -/
def bind (anchor : Option String) (node : Node) : Parser Unit := do
  match anchor with
  | none => return
  | some name =>
    if (← get).anchors.any fun (known, _) => known == name then malformed
    else modify fun s => { s with anchors := (name, node) :: s.anchors }

def aliased (name : String) : Parser Node := do
  match (← get).anchors.find? fun (known, _) => known == name with
  | some (_, node) => return node
  | none => malformed

mutual

/-- A node. Block collections are allowed only in blocks, and a sequence without indentation of its
own only behind a key or a colon of a block mapping. -/
def parse : Nat → (inBlock bare : Bool) → Parser Node
  | 0, _, _ => malformed
  | fuel + 1, inBlock, bare => do
    match ← peek with
    | some (.alias name) => skip; aliased name
    | _ =>
      let found ← properties
      let given ← match found.tag with
        | some name => address name
        | none => pure none
      let node ← parseContent fuel inBlock bare found given
      bind found.anchor node
      return node

def parseContent : Nat → (inBlock bare : Bool) → Properties → Option String → Parser Node
  | 0, _, _, _, _ => malformed
  | fuel + 1, inBlock, bare, found, given => do
    match ← peek with
    | some (.scalar text plain) =>
      skip
      let implicit := if plain || found.tag.isSome then Tag.ofPlain text else .text
      return .scalar (tagOr given implicit) text
    | some .flowSequenceStart => skip; return .sequence (tagOr given .list) (← flowItems fuel true)
    | some .flowMappingStart => skip; return .mapping (tagOr given .map) (← flowEntries fuel true)
    | some .blockEntry =>
      if bare then return .sequence (tagOr given .list) (← bareItems fuel)
      else emptyContent found given
    | some .blockSequenceStart =>
      if inBlock then skip; return .sequence (tagOr given .list) (← blockItems fuel)
      else emptyContent found given
    | some .blockMappingStart =>
      if inBlock then skip; return .mapping (tagOr given .map) (← blockEntries fuel)
      else emptyContent found given
    | _ => emptyContent found given

def emptyContent (found : Properties) (given : Option String) : Parser Node :=
  if found.anchor.isSome || found.tag.isSome then return .scalar (tagOr given .null) ""
  else malformed

def parseUnless : Nat → List Token → (inBlock bare : Bool) → Parser Node
  | 0, _, _, _ => malformed
  | fuel + 1, stops, inBlock, bare => do
    if ← isNext stops then return empty else parse fuel inBlock bare

def blockItems : Nat → Parser (List Node)
  | 0 => malformed
  | fuel + 1 => do
    if ← skipIf .blockEntry then
      let item ← parseUnless fuel [.blockEntry, .blockEnd] true false
      return item :: (← blockItems fuel)
    else expect .blockEnd; return []

def bareItems : Nat → Parser (List Node)
  | 0 => malformed
  | fuel + 1 => do
    if ← skipIf .blockEntry then
      let item ← parseUnless fuel [.blockEntry, .key, .value, .blockEnd] true false
      return item :: (← bareItems fuel)
    else return []

def blockEntries : Nat → Parser (List (Node × Node))
  | 0 => malformed
  | fuel + 1 => do
    if ← skipIf .key then
      let key ← parseUnless fuel [.key, .value, .blockEnd] true true
      let value ←
        if ← skipIf .value then parseUnless fuel [.key, .value, .blockEnd] true true
        else pure empty
      return (key, value) :: (← blockEntries fuel)
    else expect .blockEnd; return []

def flowItems : Nat → (first : Bool) → Parser (List Node)
  | 0, _ => malformed
  | fuel + 1, first => do
    if ← skipIf .flowSequenceEnd then return []
    if !first then expect .flowEntry
    if ← skipIf .key then
      let key ← parseUnless fuel [.value, .flowEntry, .flowSequenceEnd] false false
      let value ←
        if ← skipIf .value then parseUnless fuel [.flowEntry, .flowSequenceEnd] false false
        else pure empty
      return .mapping .map [(key, value)] :: (← flowItems fuel false)
    else if ← skipIf .flowSequenceEnd then return []
    else
      let item ← parse fuel false false
      return item :: (← flowItems fuel false)

def flowEntries : Nat → (first : Bool) → Parser (List (Node × Node))
  | 0, _ => malformed
  | fuel + 1, first => do
    if ← skipIf .flowMappingEnd then return []
    if !first then expect .flowEntry
    if ← skipIf .key then
      let key ← parseUnless fuel [.value, .flowEntry, .flowMappingEnd] false false
      let value ←
        if ← skipIf .value then parseUnless fuel [.flowEntry, .flowMappingEnd] false false
        else pure empty
      return (key, value) :: (← flowEntries fuel false)
    else if ← skipIf .flowMappingEnd then return []
    else
      let key ← parse fuel false false
      return (key, empty) :: (← flowEntries fuel false)

end

def defaultHandles : List (String × String) := [("!", "!"), ("!!", Tag.coreSpace)]

/-- Adds a directive: one version, which must be the first major one, and each handle once. -/
def addDirective (seen : Bool × List (String × String)) (found : Directive) :
    Except Fault (Bool × List (String × String)) :=
  match found with
  | .version major => if seen.1 || major != 1 then .error .malformedYaml else .ok (true, seen.2)
  | .handle name expansion =>
    if seen.2.any fun (known, _) => known == name then .error .malformedYaml
    else .ok (seen.1, (name, expansion) :: seen.2)
  | .other => .ok seen

def directivesOf (tokens : List Token) : List Directive :=
  (tokens.takeWhile fun | .directive _ => true | _ => false).filterMap fun
    | .directive found => some found
    | _ => none

def isOver (tokens : List Token) : Bool := tokens.all (· == .documentEnd)

def document (tokens : List Token) (handles : List (String × String)) :
    Except Fault (Node × List Token) := do
  let (node, state) ← (parse (4 * tokens.length + 8) true false).run
    { tokens, handles := handles ++ defaultHandles }
  return (node, state.tokens)

def isBlank (tokens : List Token) : Bool :=
  match tokens with
  | [] => true
  | .documentStart :: _ | .documentEnd :: _ | .directive _ :: _ => true
  | _ => false

def announced (tokens : List Token) (handles : List (String × String)) :
    Except Fault (Node × List Token) :=
  if isBlank tokens then .ok (empty, tokens) else document tokens handles

/-- The only document, if there is one. Directives need the mark of a document behind them. -/
def ofTokens (tokens : List Token) : Except Fault (Option Node) := do
  let found := directivesOf tokens
  match tokens.drop found.length with
  | [] => if found.isEmpty then return none else throw .malformedYaml
  | .documentStart :: rest => do
    let (_, handles) ← found.foldlM addDirective (false, [])
    let (node, rest) ← announced rest handles
    if isOver rest then return some node else throw .malformedYaml
  | rest =>
    if !found.isEmpty then throw .malformedYaml
    let (node, rest) ← document rest []
    if isOver rest then return some node else throw .malformedYaml

end Node

end PromptPack.Yaml
