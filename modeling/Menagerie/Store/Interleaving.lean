import Mathlib.Logic.Function.Basic
import Menagerie.Store

/-! Requests at the same time. Each goes its own way in single steps, and the steps of different requests
mix in any order. A put looks at its name and draws an id before it enters the pet in a step of its
own; a get and a delete touch the store in one step. Then the answer is given. -/

namespace Menagerie

abbrev PetAnswer := Except Refusal PetResponse

/-- How far a request has come. -/
inductive Stage where
  | begun
  /-- The name of a put is in order, and an id has been drawn. -/
  | drawn (id : String)
  /-- The answer is found; `id` is the one that was drawn for it. -/
  | settled (id : Option String) (a : PetAnswer)
  | replied (id : Option String) (a : PetAnswer)

/-- The id that was drawn by then. -/
def Stage.id? : Stage → Option String
  | begun => none
  | drawn id => some id
  | settled id _ => id
  | replied id _ => id

/-- A request on its way. -/
structure Flight where
  request : PetRequest
  stage : Stage

/-- A step of the request that has a number. -/
inductive Move where
  | begins (n : Nat) (r : PetRequest)
  /-- A put looks at its name, and draws an id if it is in order. -/
  | check (n : Nat)
  /-- The request has the store for itself. -/
  | touch (n : Nat)
  | reply (n : Nat)

/-- A store, and the requests to it by their numbers. -/
structure Traffic where
  store : Store
  flights : Nat → Option Flight

namespace Traffic

/-- The store before any request. -/
def start (init : Store) : Traffic := ⟨init, fun _ => none⟩

def advance (t : Traffic) (n : Nat) (s : Store) (r : PetRequest) (stage : Stage) : Traffic :=
  ⟨s, Function.update t.flights n (some ⟨r, stage⟩)⟩

@[simp] theorem flights_advance_self (t : Traffic) (n : Nat) (s : Store) (r : PetRequest)
    (stage : Stage) : (t.advance n s r stage).flights n = some ⟨r, stage⟩ :=
  Function.update_self ..

@[simp] theorem flights_advance_of_ne (t : Traffic) {n k : Nat} (hk : k ≠ n) (s : Store)
    (r : PetRequest) (stage : Stage) : (t.advance n s r stage).flights k = t.flights k :=
  Function.update_of_ne hk ..

/-- What the moves do. -/
inductive Step : Traffic → Move → Traffic → Prop
  | begins {t : Traffic} {n : Nat} (r : PetRequest) (hn : t.flights n = none) :
      Step t (.begins n r) (t.advance n t.store r .begun)
  | reject {t : Traffic} {n : Nat} {r : PutPetRequest} (hn : t.flights n = some ⟨.put r, .begun⟩)
      (hname : r.isNamed = false) :
      Step t (.check n) (t.advance n t.store (.put r) (.settled none (.error .blankName)))
  | draw {t : Traffic} {n : Nat} {r : PutPetRequest} (id : String)
      (hn : t.flights n = some ⟨.put r, .begun⟩) (hname : r.isNamed = true) :
      Step t (.check n) (t.advance n t.store (.put r) (.drawn id))
  | insert {t : Traffic} {n : Nat} {r : PutPetRequest} {id : String}
      (hn : t.flights n = some ⟨.put r, .drawn id⟩) :
      Step t (.touch n) (t.advance n (t.store.insert id (r.pet id)) (.put r)
        (.settled (some id) (.ok (.put ⟨some (r.pet id)⟩))))
  | get {t : Traffic} {n : Nat} {r : GetPetRequest} (hn : t.flights n = some ⟨.get r, .begun⟩) :
      Step t (.touch n) (t.advance n t.store (.get r) (.settled none
        ((t.store.get? r.id).elim (.error (.notFound r.id)) fun p => .ok (.get ⟨some p⟩))))
  | delete {t : Traffic} {n : Nat} {r : DeletePetRequest} (hn : t.flights n = some ⟨.delete r, .begun⟩) :
      Step t (.touch n) (t.advance n (t.store.erase r.id) (.delete r) (.settled none
        ((t.store.get? r.id).elim (.error (.notFound r.id)) fun _ => .ok (.delete {}))))
  | reply {t : Traffic} {n : Nat} {r : PetRequest} {id : Option String} {a : PetAnswer}
      (hn : t.flights n = some ⟨r, .settled id a⟩) :
      Step t (.reply n) (t.advance n t.store r (.replied id a))

/-- Moves in any order that the requests allow, and what they lead to. -/
inductive Run (init : Store) : List Move → Traffic → Prop
  | start : Run init [] (start init)
  | step {moves : List Move} {t t' : Traffic} {m : Move} (run : Run init moves t) (next : Step t m t') :
      Run init (moves ++ [m]) t'

/-- A request has drawn an id. -/
def Drew (t : Traffic) (n : Nat) (id : String) : Prop :=
  ∃ f, t.flights n = some f ∧ f.stage.id? = some id

end Traffic

/-- A request whose answer is found: it was refused for its name, or has touched the store. -/
structure Settlement where
  number : Nat
  request : PetRequest
  id? : Option String
  answer : PetAnswer

namespace Settlement

/-- The id for the request; if none was drawn, none is used. -/
def id (x : Settlement) : String := x.id?.getD ""

/-- The request has put a pet under an id. -/
def Puts (x : Settlement) (id : String) (p : Pet) : Prop :=
  x.answer = .ok (.put ⟨some p⟩) ∧ p.id = id

/-- The request has taken the pet with an id away. -/
def Deletes (x : Settlement) (id : String) : Prop :=
  x.request = .delete ⟨id⟩ ∧ x.answer = .ok (.delete {})

end Settlement

/-- What is settled of a request with a number, whether it has replied or not. -/
def Flight.settlement? (n : Nat) : Flight → Option Settlement
  | ⟨r, .settled id a⟩ => some ⟨n, r, id, a⟩
  | ⟨r, .replied id a⟩ => some ⟨n, r, id, a⟩
  | _ => none

namespace Traffic

def settlement? (t : Traffic) (n : Nat) : Option Settlement := (t.flights n).bind (Flight.settlement? n)

def Settled (t : Traffic) (x : Settlement) : Prop := t.settlement? x.number = some x

end Traffic

/-- Answers requests one at a time, each with the id that it has drawn. -/
def Store.serve (s : Store) : List Settlement → List PetAnswer × Store
  | [] => ([], s)
  | x :: rest =>
    let (reply, after) := s.answer x.id x.request
    let (replies, last) := after.serve rest
    (reply :: replies, last)

end Menagerie
