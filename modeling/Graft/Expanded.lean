import Graft.Diagnostic

/-!
# An output with its diagnostics

`Expanded α` is an output together with what was left unexpanded, in the order in which it was met.
`map` changes the output alone; `bind` goes on from the output and appends the diagnostics.
-/

namespace Graft

universe u v

structure Expanded (α : Type u) where
  output : α
  diagnostics : List Diagnostic
deriving DecidableEq, Repr

namespace Expanded

variable {α : Type u} {β : Type v}

/-- nothing to report -/
def clean (output : α) : Expanded α := ⟨output, []⟩

def map (f : α → β) (x : Expanded α) : Expanded β := ⟨f x.output, x.diagnostics⟩

def bind (x : Expanded α) (f : α → Expanded β) : Expanded β :=
  ⟨(f x.output).output, x.diagnostics ++ (f x.output).diagnostics⟩

/-- every placeholder was expanded -/
def isComplete (x : Expanded α) : Bool := x.diagnostics.isEmpty

theorem output_clean (output : α) : (clean output).output = output := rfl

theorem diagnostics_clean (output : α) : (clean output).diagnostics = [] := rfl

theorem output_map (f : α → β) (x : Expanded α) : (x.map f).output = f x.output := rfl

theorem diagnostics_map (f : α → β) (x : Expanded α) : (x.map f).diagnostics = x.diagnostics := rfl

theorem output_bind (x : Expanded α) (f : α → Expanded β) :
    (x.bind f).output = (f x.output).output := rfl

theorem diagnostics_bind (x : Expanded α) (f : α → Expanded β) :
    (x.bind f).diagnostics = x.diagnostics ++ (f x.output).diagnostics := rfl

theorem isComplete_iff (x : Expanded α) : x.isComplete = true ↔ x.diagnostics = [] :=
  List.isEmpty_iff

end Expanded

end Graft
