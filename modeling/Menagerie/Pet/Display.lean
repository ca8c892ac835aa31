import Menagerie.Pet
import Menagerie.Text.Record

/-! Pets, requests and answers as texts for people. -/

namespace Menagerie

def Pet.display (p : Pet) : String :=
  Text.showRecord "Pet" [("pet_type", Species.nameOfNumber p.kind), ("pet_id", Text.quote p.id),
    ("name", Text.quote p.name)]

def GetPetRequest.display (m : GetPetRequest) : String :=
  Text.showRecord "GetPetRequest" [("pet_id", Text.quote m.id)]

def GetPetResponse.display (m : GetPetResponse) : String :=
  Text.showRecord "GetPetResponse" [("pet", Text.showOption (m.pet.map Pet.display))]

def PutPetRequest.display (m : PutPetRequest) : String :=
  Text.showRecord "PutPetRequest"
    [("pet_type", Species.nameOfNumber m.kind), ("name", Text.quote m.name)]

def PutPetResponse.display (m : PutPetResponse) : String :=
  Text.showRecord "PutPetResponse" [("pet", Text.showOption (m.pet.map Pet.display))]

def DeletePetRequest.display (m : DeletePetRequest) : String :=
  Text.showRecord "DeletePetRequest" [("pet_id", Text.quote m.id)]

def DeletePetResponse.display (_ : DeletePetResponse) : String := Text.showRecord "DeletePetResponse" []

end Menagerie
