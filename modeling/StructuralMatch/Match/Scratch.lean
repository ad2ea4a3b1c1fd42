import StructuralMatch.Host.Question

/-!
# `Match.Scratch` — remembering what the host said about the parts of a subject

A part of a subject is known by its access path, the steps that lead to it. Within one evaluation a path
always leads to the same value, so that what the host said about the value can be kept under the path:
its elements, its mapping view, its components, the attributes its class declares, and every attribute
that was fetched, found or not. An error is not kept.

## Contents

* `PathStep`, `AccessPath`
* `NodeMemo`, what is remembered about one part
* `Scratch`, the memory, with the ledger `asked` of the questions it could not answer itself
* `Observer`, a host with a memory of its answers, and `askOnce`
* `ObserverM.elements`, `mapping`, `components`, `declared`, `attribute?`
-/

namespace StructuralMatch

/-! ## Paths -/

/-- A step from a value to one of its parts. -/
inductive PathStep where
  /-- An element of the sequence. -/
  | index (position : Nat)
  /-- The elements from one position up to another. -/
  | slice (start stop : Nat)
  /-- The value at a key of the mapping. -/
  | key (key : MapKey)
  | component (position : Nat)
  | field (name : Name)
deriving DecidableEq, Repr, Inhabited

/-- The steps that lead from the subject to a part of it. -/
abbrev AccessPath := Array PathStep

/-- The path of the subject itself. -/
def AccessPath.root : AccessPath := #[]

/-! ## Memory -/

/-- What is remembered about one part. -/
structure NodeMemo where
  elements : Option (List Value) := none
  mapping : Option (MappingView Value) := none
  components : Option (List Value) := none
  declared : Option (List Name) := none
  /-- The attributes that were fetched, where a missing one is kept as such. -/
  attributes : List (Name × Option Value) := []
deriving Repr, Inhabited

/-- The memory of one evaluation. -/
structure Scratch where
  /-- What is remembered about each part that was looked at. -/
  nodes : List (AccessPath × NodeMemo)
  /-- The questions that were put to the host, each with the path it was put for, the last one first. -/
  asked : List (AccessPath × Event)
deriving Repr

namespace Scratch

/-- Nothing was looked at. -/
def empty : Scratch := ⟨[], []⟩

instance : Inhabited Scratch := ⟨empty⟩

/-- The number of parts that were looked at. -/
def size (scratch : Scratch) : Nat := scratch.nodes.length

/-- Whether nothing was looked at. -/
def isEmpty (scratch : Scratch) : Bool := scratch.nodes.isEmpty

/-- What is remembered about a part. -/
def node? (scratch : Scratch) (path : AccessPath) : Option NodeMemo :=
  (scratch.nodes.find? fun node => node.1 = path).map (·.2)

/-- Changes what is remembered about a part. -/
def update (scratch : Scratch) (path : AccessPath) (change : NodeMemo → NodeMemo) : Scratch :=
  { scratch with
    nodes := scratch.nodes.map fun node => if node.1 = path then (node.1, change node.2) else node }

/-- Notes that a part is looked at, and returns what is remembered about it. -/
def visit (scratch : Scratch) (path : AccessPath) : NodeMemo × Scratch :=
  match scratch.node? path with
  | some memo => (memo, scratch)
  | none => ({}, { scratch with nodes := (path, {}) :: scratch.nodes })

/-- Enters a question into the ledger. -/
def noteAsked (scratch : Scratch) (path : AccessPath) (event : Event) : Scratch :=
  { scratch with asked := (path, event) :: scratch.asked }

end Scratch

/-! ## Asking with a memory -/

/-- A host together with a memory of its answers. -/
structure Observer where
  host : Host
  scratch : Scratch
deriving Inhabited

/-- A computation that asks a host with a memory of its answers. -/
abbrev ObserverM := EStateM HostError Observer

/-- The answer that is remembered for a part, or else the host's answer, which is remembered then. -/
def askOnce {α : Type} (path : AccessPath) (slot : NodeMemo → Option α)
    (keep : α → NodeMemo → NodeMemo) (question : Question α) : ObserverM α := fun observer =>
  let (memo, scratch) := observer.scratch.visit path
  match slot memo with
  | some a => .ok a { observer with scratch }
  | none =>
    let scratch := scratch.noteAsked path question.event
    match question.ask observer.host with
    | .ok a host => .ok a ⟨host, scratch.update path (keep a)⟩
    | .error e host => .error e ⟨host, scratch⟩

namespace ObserverM

/-- The elements of the value at a path. -/
def elements (path : AccessPath) (value : Value) : ObserverM (List Value) :=
  askOnce path (·.elements) (fun items memo => { memo with elements := some items })
    (.elements value)

/-- The mapping view of the value at a path. -/
def mapping (path : AccessPath) (value : Value) : ObserverM (MappingView Value) :=
  askOnce path (·.mapping) (fun view memo => { memo with mapping := some view }) (.mapping value)

/-- The components of the value at a path. -/
def components (path : AccessPath) (value : Value) : ObserverM (List Value) :=
  askOnce path (·.components) (fun items memo => { memo with components := some items })
    (.components value)

/-- The attributes that the class of the value at a path declares. -/
def declared (path : AccessPath) (value : Value) : ObserverM (List Name) :=
  askOnce path (·.declared) (fun names memo => { memo with declared := some names })
    (.matchArgs value.type)

/-- The attribute of the value at a path, if it has it. -/
def attribute? (path : AccessPath) (value : Value) (name : Name) : ObserverM (Option Value) :=
  askOnce path (·.attributes.lookup name)
    (fun found memo => { memo with attributes := (name, found) :: memo.attributes })
    (.fetch value name)

end ObserverM

end StructuralMatch
