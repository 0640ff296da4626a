import PromptPack.Prune.Protection
import PromptPack.Trace

/-! Removing the declarations of unreachable symbols. Each symbol is judged and removed in the text
that the earlier ones left. -/

namespace PromptPack.Prune

def maxStripSize : Nat := 200000

/-- Removes one symbol, unless it is empty or protected in the text at hand. -/
def stripSymbol (family : LanguageFamily) (cs : List Char) (symbol : String) : List Char :=
  let name := symbol.toList
  if name.isEmpty || isProtected family name cs then cs
  else (headers family name).foldl (removeDeclarations family) cs

def stripSymbols (family : LanguageFamily) (symbols : List String) (cs : List Char) : List Char :=
  symbols.foldl (stripSymbol family) cs

def stripUnreachable (content : String) (symbols : List String) (family : LanguageFamily) :
    Traced String :=
  if symbols.isEmpty || family = .unsupported then pure content
  else if maxStripSize < content.length then do
    Traced.write .debug .pruning s!"Skipping strip: {content.length} chars exceeds {maxStripSize}"
    return content
  else pure (String.ofList (stripSymbols family symbols content.toList))

end PromptPack.Prune
