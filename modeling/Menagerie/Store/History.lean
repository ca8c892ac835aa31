import Mathlib.Logic.Relation
import Menagerie.Store.Handles

/-! What happened over the handles, in order. From the answers alone one can tell which handles share a
store, which pets it keeps and how many they are. -/

namespace Menagerie

/-- A step over the handles, and its answer. -/
structure HandleEvent where
  step : HandleStep
  answer : HandleAnswer
  deriving DecidableEq, Repr

namespace HandleEvent

/-- The handle and the pet of a put that was granted. -/
def put? : HandleEvent → Option (Nat × Pet)
  | ⟨.request k (.put _), .response (.put ⟨some p⟩)⟩ => some (k, p)
  | _ => none

/-- The handle and the id of a delete that was granted. -/
def delete? : HandleEvent → Option (Nat × String)
  | ⟨.request k (.delete r), .response (.delete _)⟩ => some (k, r.id)
  | _ => none

/-- The event is a put or a delete that was granted through a handle. -/
def Through (e : HandleEvent) (k : Nat) : Prop :=
  (∃ p, e.put? = some (k, p)) ∨ ∃ id, e.delete? = some (k, id)

end HandleEvent

/-- Events in order, the latest at the end. -/
abbrev History := List HandleEvent

namespace History

/-- Handle `k` was made as a clone of handle `j`. -/
def Cloned (events : History) (j k : Nat) : Prop := ⟨.clone j, .handle k⟩ ∈ events

/-- One handle leads to the other over clones. -/
def Related (events : History) : Nat → Nat → Prop := Relation.EqvGen events.Cloned

/-- A pet was put under an id through one of some handles, and none of them was used to delete the id
since. -/
def Keeps (events : History) (among : Nat → Prop) (id : String) (p : Pet) : Prop :=
  p.id = id ∧ ∃ earlier e later, events = earlier ++ e :: later ∧
    (∃ k, among k ∧ e.put? = some (k, p)) ∧ ∀ d ∈ later, ∀ k, among k → d.delete? ≠ some (k, id)

/-- How many puts were granted through some handles. -/
def puts (events : History) (among : Nat → Prop) [DecidablePred among] : Nat :=
  events.countP fun e => e.put?.any fun x => among x.1

/-- How many deletes were granted through some handles. -/
def deletes (events : History) (among : Nat → Prop) [DecidablePred among] : Nat :=
  events.countP fun e => e.delete?.any fun x => among x.1

end History

namespace Handles

/-- Steps from a single handle: what happened, and what it led to. -/
inductive Run (ids : Nat → String) : History → Handles → Prop
  | start : Run ids [] single
  | step {events : History} {hs after : Handles} {st : HandleStep} {a : HandleAnswer}
      (run : Run ids events hs) (next : hs.step ids st = some (a, after)) :
      Run ids (events ++ [⟨st, a⟩]) after

/-- The pet that a store has under an id. -/
def contents (hs : Handles) (cell : Nat) (id : String) : Option Pet :=
  (hs.stores[cell]?).elim none fun s => s.get? id

/-- How many pets a store has. -/
def population (hs : Handles) (cell : Nat) : Nat := (hs.stores[cell]?).elim 0 Store.size

end Handles

end Menagerie
