import PromptPack.Fault

/-! What an operation does besides its answer: it writes log records. `Traced` pairs a value with the
records written on the way, oldest first. -/

namespace PromptPack

inductive LogLevel where
  | debug | info | warning | error
deriving DecidableEq, Repr

inductive LogSource where
  | pruning | counting | estimation | packing
deriving DecidableEq, Repr

structure LogRecord where
  level : LogLevel
  source : LogSource
  message : String
deriving DecidableEq, Repr

structure Traced (α : Type) where
  value : α
  log : List LogRecord := []
deriving Repr

namespace Traced

def write (level : LogLevel) (source : LogSource) (message : String) : Traced Unit :=
  ⟨(), [⟨level, source, message⟩]⟩

instance : Monad Traced where
  pure value := ⟨value, []⟩
  bind first next :=
    let second := next first.value
    ⟨second.value, first.log ++ second.log⟩

@[simp] theorem value_pure {α : Type} (a : α) : (pure a : Traced α).value = a := rfl

@[simp] theorem value_bind {α β : Type} (first : Traced α) (next : α → Traced β) :
    (first >>= next).value = (next first.value).value := rfl

@[simp] theorem log_pure {α : Type} (a : α) : (pure a : Traced α).log = [] := rfl

@[simp] theorem log_bind {α β : Type} (first : Traced α) (next : α → Traced β) :
    (first >>= next).log = first.log ++ (next first.value).log := rfl

end Traced

end PromptPack
