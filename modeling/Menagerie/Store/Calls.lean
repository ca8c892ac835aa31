import Mathlib.Logic.Equiv.Defs
import Menagerie.Store.Handles

/-! Requests through handles one after the other, each with the id that it draws. Two of them conflict
if they concern one id of one store and do not both only look. -/

namespace Menagerie

/-- A request through a handle; `id` is the one that a put draws. -/
structure HandleCall where
  handle : Nat
  id : String
  request : PetRequest
  deriving DecidableEq, Repr

namespace HandleCall

/-- The id that a call concerns. A put without a name draws no id and concerns none. -/
def subject? (c : HandleCall) : Option String :=
  match c.request with
  | .get r => some r.id
  | .put r => if r.isNamed then some c.id else none
  | .delete r => some r.id

/-- A call that can change nothing. -/
def looks (c : HandleCall) : Bool :=
  match c.request with
  | .get _ => true
  | _ => false

end HandleCall

namespace Handles

/-- Two calls concern one id of one store, and do not both look. -/
def Conflicting (hs : Handles) (c d : HandleCall) : Prop :=
  (∃ cell ∈ hs.handles[c.handle]?, cell ∈ hs.handles[d.handle]?) ∧
    (∃ id ∈ c.subject?, id ∈ d.subject?) ∧ ¬(c.looks = true ∧ d.looks = true)

instance (hs : Handles) (c d : HandleCall) : Decidable (hs.Conflicting c d) :=
  inferInstanceAs (Decidable (_ ∧ _ ∧ _))

/-- One step; a handle that leads nowhere gives no answer. -/
def call (hs : Handles) (c : HandleCall) : Option HandleAnswer × Handles :=
  match hs.step (fun _ => c.id) (.request c.handle c.request) with
  | some (a, after) => (some a, after)
  | none => (none, hs)

/-- The answers to calls in order, and what the last one leaves. -/
def calls (hs : Handles) : List HandleCall → List (Option HandleAnswer) × Handles
  | [] => ([], hs)
  | c :: rest =>
    let (a, after) := hs.call c
    let (answers, last) := after.calls rest
    (a :: answers, last)

end Handles

/-- A list in another order: the element at `i` comes to stand at `σ i`. -/
def reorder {α : Type} (xs : List α) (σ : Equiv.Perm (Fin xs.length)) : List α :=
  (List.finRange xs.length).map fun i => xs.get (σ.symm i)

/-- Of two conflicting calls the one that came first still does. -/
def Handles.KeepsOrder (hs : Handles) (cs : List HandleCall) (σ : Equiv.Perm (Fin cs.length)) : Prop :=
  ∀ i j, i < j → hs.Conflicting (cs.get i) (cs.get j) → σ i < σ j

instance (hs : Handles) (cs : List HandleCall) (σ : Equiv.Perm (Fin cs.length)) :
    Decidable (hs.KeepsOrder cs σ) :=
  inferInstanceAs (Decidable (∀ i j, i < j → _ → σ i < σ j))

end Menagerie
