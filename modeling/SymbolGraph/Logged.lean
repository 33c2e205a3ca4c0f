/-
Values with the log records that computing them left behind. Records are
kept in order and at every level; whoever shows them picks a level. What a
computation returns never depends on its records, and `value` of a
composed computation is the composition of the values, by definition.
-/
namespace SymbolGraph

inductive Level where
  | error | warn | info | debug | trace
deriving DecidableEq, Inhabited

namespace Level

/-- Severity, the most severe first. -/
def rank : Level → Nat
  | error => 1
  | warn => 2
  | info => 3
  | debug => 4
  | trace => 5

def name : Level → String
  | error => "ERROR"
  | warn => "WARN"
  | info => "INFO"
  | debug => "DEBUG"
  | trace => "TRACE"

/-- Is a record of level `l` shown when everything up to `limit` is? -/
def shownAt (l limit : Level) : Bool := l.rank ≤ limit.rank

end Level

structure Record where
  level : Level
  text : String
deriving DecidableEq, Inhabited

/-- A value and the records left on the way to it. -/
structure Logged (α : Type) where
  value : α
  records : List Record := []

namespace Logged

instance : Monad Logged where
  pure a := ⟨a, []⟩
  bind x f := let y := f x.value; ⟨y.value, x.records ++ y.records⟩

instance [Inhabited α] : Inhabited (Logged α) := ⟨⟨default, []⟩⟩

def note (level : Level) (text : String) : Logged Unit :=
  ⟨(), [⟨level, text⟩]⟩

def error (text : String) : Logged Unit := note .error text

def warn (text : String) : Logged Unit := note .warn text

def info (text : String) : Logged Unit := note .info text

def debug (text : String) : Logged Unit := note .debug text

def trace (text : String) : Logged Unit := note .trace text

theorem value_bind {α β : Type} (x : Logged α) (f : α → Logged β) :
    (x >>= f).value = (f x.value).value := rfl

theorem value_pure {α : Type} (a : α) : (pure a : Logged α).value = a := rfl

end Logged

end SymbolGraph
