import Menagerie.Store

/-! Many stores behind handles. A handle leads to one store, and a clone of it to the same one. Every
pet put through any handle gets the next id of one supply. -/

namespace Menagerie

structure Handles where
  stores : List Store
  /-- The store that each handle leads to. -/
  handles : List Nat
  /-- How many ids have been drawn. -/
  drawn : Nat := 0

/-- A step over the handles. -/
inductive HandleStep where
  | create
  | clone (handle : Nat)
  | size (handle : Nat)
  | isEmpty (handle : Nat)
  | request (handle : Nat) (r : PetRequest)
  deriving DecidableEq, Repr

inductive HandleAnswer where
  | handle (number : Nat)
  | size (n : Nat)
  | isEmpty (b : Bool)
  | response (r : PetResponse)
  | refused (r : Refusal)
  deriving DecidableEq, Repr

namespace Handles

/-- One handle that leads to an empty store. -/
def single : Handles := ⟨[{}], [0], 0⟩

def store? (hs : Handles) (handle : Nat) : Option Store :=
  (hs.handles[handle]?).bind fun cell => hs.stores[cell]?

/-- Two handles that lead to the same store. -/
def Related (hs : Handles) (h k : Nat) : Prop := hs.handles[h]? = hs.handles[k]?

/-- Answers one step; a handle that does not exist gives nothing. -/
def step (ids : Nat → String) (hs : Handles) : HandleStep → Option (HandleAnswer × Handles)
  | .create =>
    some (.handle hs.handles.length,
      { hs with stores := hs.stores ++ [{}], handles := hs.handles ++ [hs.stores.length] })
  | .clone handle =>
    (hs.handles[handle]?).map fun cell =>
      (.handle hs.handles.length, { hs with handles := hs.handles ++ [cell] })
  | .size handle => (hs.store? handle).map fun s => (.size s.size, hs)
  | .isEmpty handle => (hs.store? handle).map fun s => (.isEmpty s.isEmpty, hs)
  | .request handle r =>
    match hs.handles[handle]? with
    | none => none
    | some cell =>
      (hs.stores[cell]?).map fun s =>
        let (reply, after) := s.answer (ids hs.drawn) r
        let hs := { hs with
          stores := hs.stores.set cell after
          drawn := if r.drawsId then hs.drawn + 1 else hs.drawn }
        match reply with
        | .ok response => (.response response, hs)
        | .error refusal => (.refused refusal, hs)

/-- The size of the store behind every handle. -/
def sizes (hs : Handles) : List Nat :=
  hs.handles.map fun cell => (hs.stores[cell]?).elim 0 Store.size

end Handles

end Menagerie
