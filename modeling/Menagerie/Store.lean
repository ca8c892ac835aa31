import Menagerie.Pet
import Menagerie.Text.Blank

/-! A store keeps pets under their ids, each id once. A pet is put under an id drawn for it and is
answered with that id; a name of nothing but blanks is refused, and so is an id that no pet has. -/

namespace Menagerie

structure Store where
  entries : List (String × Pet) := []
  nodup_ids : (entries.map (·.1)).Nodup := by exact List.nodup_nil

/-- Why a request is refused. -/
inductive Refusal where
  | notFound (id : String)
  | blankName
  deriving DecidableEq, Repr

def Refusal.message : Refusal → String
  | notFound id => s!"Pet not found: {id}"
  | blankName => "Pet name must not be empty"

inductive PetRequest where
  | get (r : GetPetRequest)
  | put (r : PutPetRequest)
  | delete (r : DeletePetRequest)
  deriving DecidableEq, Repr

inductive PetResponse where
  | get (r : GetPetResponse)
  | put (r : PutPetResponse)
  | delete (r : DeletePetResponse)
  deriving DecidableEq, Repr

/-- The pet in a response. -/
def PetResponse.pet? : PetResponse → Option Pet
  | get r => r.pet
  | put r => r.pet
  | delete _ => none

namespace PutPetRequest

/-- A name needs a character that shows. -/
def isNamed (r : PutPetRequest) : Bool := !Text.allBlank r.name

/-- The pet that a request asks for, under the id drawn for it. -/
def pet (r : PutPetRequest) (id : String) : Pet := { kind := r.kind, id, name := r.name }

end PutPetRequest

/-- Whether a request needs an id. -/
def PetRequest.drawsId : PetRequest → Bool
  | put r => r.isNamed
  | _ => false

namespace Store

def size (s : Store) : Nat := s.entries.length

def isEmpty (s : Store) : Bool := s.entries.isEmpty

def get? (s : Store) (id : String) : Option Pet := (s.entries.find? (·.1 = id)).map (·.2)

def erase (s : Store) (id : String) : Store where
  entries := s.entries.filter (·.1 ≠ id)
  nodup_ids := s.nodup_ids.sublist (List.filter_sublist.map _)

/-- Keeps a pet under an id, in place of one that the id had. -/
def insert (s : Store) (id : String) (p : Pet) : Store where
  entries := (id, p) :: (s.erase id).entries
  nodup_ids := by
    refine List.nodup_cons.2 ⟨?_, (s.erase id).nodup_ids⟩
    simp [erase]

@[simp] theorem get?_empty (id : String) : ({} : Store).get? id = none := rfl

@[simp] theorem get?_erase (s : Store) (id other : String) :
    (s.erase id).get? other = if other = id then none else s.get? other := by
  have h : ∀ es : List (String × Pet), (es.filter (·.1 ≠ id)).find? (·.1 = other)
      = if other = id then none else es.find? (·.1 = other) := by
    intro es
    rw [List.find?_filter]
    split
    · next e =>
        subst e
        simp
    · next e =>
        congr 1
        funext p
        by_cases hp : p.1 = other <;> simp [hp, e]
  unfold get? erase
  rw [h]
  split <;> rfl

@[simp] theorem get?_insert (s : Store) (id other : String) (p : Pet) :
    (s.insert id p).get? other = if other = id then some p else s.get? other := by
  by_cases h : other = id
  · simp [get?, insert, h]
  · have hs := get?_erase s id other
    rw [if_neg h] at hs ⊢
    rw [← hs]
    simp [get?, insert, Ne.symm h]

/-- Answers a request; `id` is the id that a new pet gets. -/
def answer (s : Store) (id : String) : PetRequest → Except Refusal PetResponse × Store
  | .get r =>
    match s.get? r.id with
    | some p => (.ok (.get ⟨some p⟩), s)
    | none => (.error (.notFound r.id), s)
  | .put r =>
    if r.isNamed then (.ok (.put ⟨some (r.pet id)⟩), s.insert id (r.pet id))
    else (.error .blankName, s)
  | .delete r =>
    match s.get? r.id with
    | some _ => (.ok (.delete {}), s.erase r.id)
    | none => (.error (.notFound r.id), s)

end Store

end Menagerie
