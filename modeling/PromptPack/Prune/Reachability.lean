import PromptPack.Document.Value
import PromptPack.Prune.Strip
import PromptPack.Table

/-! Pruning a selection. An oracle from outside names the unreachable symbols of each file; without
an entry point, an oracle or a file that can be pruned, and when the oracle fails, every text stays
as it is. -/

namespace PromptPack

/-- The symbols an oracle reports, by path; a file may be listed with none. -/
structure Reachability where
  reachable : Table String (Option (List String)) := []
  unreachable : Table String (Option (List String)) := []
deriving DecidableEq, Repr

def Reachability.unreachableFor (found : Reachability) (path : String) : List String :=
  ((found.unreachable.get? path).join).getD []

structure OracleCall where
  entryPoint : Value
  files : List (String × String)
deriving Repr

abbrev Oracle := OracleCall → Except String Reachability

namespace Prune

structure Pruned where
  contents : Table String String
  call : Option OracleCall := none
deriving Repr

def pruneFile (found : Reachability) (contents : Table String String) (file : SourceFile) :
    Traced (Table String String) :=
  let symbols := found.unreachableFor file.path
  if symbols.isEmpty then pure contents
  else
    let current := (contents.get? file.path).getD ""
    if maxStripSize < current.length then do
      Traced.write .info .pruning
        s!"Not pruning {file.path}: file too large ({current.length} chars)"
      return contents
    else do
      return contents.set file.path (← stripUnreachable current symbols file.family)

def callFor (entryPoint : Value) (contents : Table String String) (eligible : List SourceFile) :
    OracleCall :=
  ⟨entryPoint, eligible.map fun file => (file.path, (contents.get? file.path).getD "")⟩

def pruneSelection (selected : List SourceFile) (contents : Table String String)
    (entryPoint : Value) (oracle : Option Oracle) : Traced Pruned :=
  let eligible := selected.filter (·.isEligible)
  match oracle with
  | none => pure { contents }
  | some oracle =>
    if !entryPoint.truthy || eligible.isEmpty then pure { contents }
    else
      let call := callFor entryPoint contents eligible
      match oracle call with
      | .error reason => do
        Traced.write .warning .pruning
          s!"Reachability analysis failed, skipping pruning: {reason}"
        return { contents, call }
      | .ok found => do
        return { contents := (← eligible.foldlM (pruneFile found) contents), call }

end Prune

end PromptPack
