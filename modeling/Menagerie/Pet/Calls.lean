import Menagerie.Pet.Layout
import Menagerie.Rpc.Failure

/-! The methods about pets, called with octets. A call from which no request can be read changes nothing
and takes no id; any other has the effect of the request that was read. -/

namespace Menagerie

inductive PetMethod where
  | get | put | delete
  deriving DecidableEq, Repr

namespace PetMethod

def name : PetMethod → String
  | get => "GetPet"
  | put => "PutPet"
  | delete => "DeletePet"

def all : List PetMethod := [get, put, delete]

def ofName? (s : String) : Option PetMethod := all.find? (·.name = s)

/-- The request that a payload stands for. -/
def read (payload : List UInt8) : PetMethod → Except Wire.Fault PetRequest
  | get => (Wire.decode GetPetRequest payload).map .get
  | put => (Wire.decode PutPetRequest payload).map .put
  | delete => (Wire.decode DeletePetRequest payload).map .delete

/-- The response of the method that a payload stands for. -/
def readResponse (payload : List UInt8) : PetMethod → Except Wire.Fault PetResponse
  | get => (Wire.decode GetPetResponse payload).map .get
  | put => (Wire.decode PutPetResponse payload).map .put
  | delete => (Wire.decode DeletePetResponse payload).map .delete

end PetMethod

namespace PetRequest

/-- The method that a request is for. -/
def method : PetRequest → PetMethod
  | get _ => .get
  | put _ => .put
  | delete _ => .delete

def encode : PetRequest → List UInt8
  | get r => Wire.Message.encode r
  | put r => Wire.Message.encode r
  | delete r => Wire.Message.encode r

end PetRequest

def PetResponse.encode : PetResponse → List UInt8
  | get r => Wire.Message.encode r
  | put r => Wire.Message.encode r
  | delete r => Wire.Message.encode r

/-- A store, and how many ids its pets have drawn. -/
structure PetService where
  store : Store := {}
  drawn : Nat := 0

namespace PetService

/-- Answers a request. -/
def answer (ids : Nat → String) (s : PetService) (r : PetRequest) :
    Except Rpc.Failure PetResponse × PetService :=
  let (reply, store) := s.store.answer (ids s.drawn) r
  (reply.mapError .refused, ⟨store, if r.drawsId then s.drawn + 1 else s.drawn⟩)

/-- Answers a method called with what was read as its request. -/
def reply (ids : Nat → String) (s : PetService) (request : Except Rpc.Failure PetRequest) :
    Except Rpc.Failure (List UInt8) × PetService :=
  match request with
  | .error f => (.error f, s)
  | .ok r =>
    let (response, after) := s.answer ids r
    (response.map PetResponse.encode, after)

end PetService

end Menagerie
