import Sequencer.Signature
import Sequencer.SortedMap
import Sequencer.Text.Characters

/-!
# Contexts and layers

A `Context` binds capability keys to values, at most one per key identity; a `Layer` is
a bundle of bindings that joins a context in one step.  Both are values: binding a key
gives a new one.  Where a layer and a context bind the same key, the larger of the two
keeps its binding, and the layer does when they are equally large.  A lookup tells apart a
key nobody provided from a binding whose value has another shape than the key promises.
-/

namespace Sequencer

structure Binding (S : Signature) where
  name : String
  shape : S.Shape
  value : S.El shape

structure Context (S : Signature) where
  bindings : SortedMap Nat (Binding S)

structure Layer (S : Signature) where
  bindings : SortedMap Nat (Binding S)

inductive Lookup (α : Type) where
  | found (value : α)
  | missing
  | misshapen

variable {S : Signature} {shape : S.Shape}

def Key.bind (key : Key S shape) (value : S.El shape) : Binding S :=
  ⟨key.name, shape, value⟩

def Binding.read (binding : Binding S) (shape : S.Shape) : Lookup (S.El shape) :=
  if same : binding.shape = shape then .found (same ▸ binding.value) else .misshapen

def capabilitiesOf (bindings : SortedMap Nat (Binding S)) : List Capability :=
  bindings.entries.map fun entry => ⟨entry.1, entry.2.name⟩

def capabilitySetText (capabilities : List Capability) : String :=
  "\x7b" ++ ", ".intercalate (capabilities.map fun c => Text.quote c.text) ++ "\x7d"

namespace Layer

def empty : Layer S := ⟨.empty⟩

def provide (layer : Layer S) (key : Key S shape) (value : S.El shape) : Layer S :=
  ⟨layer.bindings.insert key.id (key.bind value)⟩

def size (layer : Layer S) : Nat := layer.bindings.size

def isEmpty (layer : Layer S) : Bool := layer.bindings.isEmpty

def text (layer : Layer S) : String :=
  capabilitySetText (capabilitiesOf layer.bindings)

end Layer

namespace Context

def empty : Context S := ⟨.empty⟩

def provide (context : Context S) (key : Key S shape) (value : S.El shape) : Context S :=
  ⟨context.bindings.insert key.id (key.bind value)⟩

/-- The bindings of both.  A key they share keeps the binding of the larger one; a layer
with as many bindings as the context counts as larger. -/
def extend (context : Context S) (layer : Layer S) : Context S :=
  if layer.isEmpty then context
  else if context.bindings.size ≤ layer.size then ⟨context.bindings.union layer.bindings⟩
  else ⟨layer.bindings.union context.bindings⟩

def lookup (context : Context S) (key : Key S shape) : Lookup (S.El shape) :=
  match context.bindings.get? key.id with
  | none => .missing
  | some binding => binding.read shape

def contains (context : Context S) (key : Key S shape) : Bool :=
  context.bindings.contains key.id

def size (context : Context S) : Nat := context.bindings.size

def isEmpty (context : Context S) : Bool := context.bindings.isEmpty

def capabilities (context : Context S) : List Capability :=
  capabilitiesOf context.bindings

def text (context : Context S) : String :=
  capabilitySetText context.capabilities

end Context

end Sequencer
