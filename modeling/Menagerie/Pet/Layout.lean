import Menagerie.Pet
import Menagerie.Wire.Message

/-! The layout of pets, requests and answers as messages. -/

namespace Menagerie

open Wire

instance : Message Pet where
  blank := {}
  encode m := writeInt32 1 m.kind ++ writeText 2 m.id ++ writeText 3 m.name
  mergeField depth m tag t bs :=
    match tag with
    | 1 => setField "Pet" "pet_type" (fun k => { m with kind := k }) (readInt32 t bs)
    | 2 => setField "Pet" "pet_id" (fun s => { m with id := s }) (readText t bs)
    | 3 => setField "Pet" "name" (fun s => { m with name := s }) (readText t bs)
    | tag => ignoreField depth m tag t bs

instance : Message GetPetRequest where
  blank := {}
  encode m := writeText 1 m.id
  mergeField depth m tag t bs :=
    match tag with
    | 1 => setField "GetPetRequest" "pet_id" (fun s => { m with id := s }) (readText t bs)
    | tag => ignoreField depth m tag t bs

instance : Message GetPetResponse where
  blank := {}
  encode m := writeEmbedded 1 m.pet
  mergeField depth m tag t bs :=
    match tag with
    | 1 => setEmbedded "GetPetResponse" "pet" (fun p => { m with pet := some p })
        (mergeEmbedded depth (m.pet.getD {}) t bs)
    | tag => ignoreField depth m tag t bs

instance : Message PutPetRequest where
  blank := {}
  encode m := writeInt32 1 m.kind ++ writeText 2 m.name
  mergeField depth m tag t bs :=
    match tag with
    | 1 => setField "PutPetRequest" "pet_type" (fun k => { m with kind := k }) (readInt32 t bs)
    | 2 => setField "PutPetRequest" "name" (fun s => { m with name := s }) (readText t bs)
    | tag => ignoreField depth m tag t bs

instance : Message PutPetResponse where
  blank := {}
  encode m := writeEmbedded 1 m.pet
  mergeField depth m tag t bs :=
    match tag with
    | 1 => setEmbedded "PutPetResponse" "pet" (fun p => { m with pet := some p })
        (mergeEmbedded depth (m.pet.getD {}) t bs)
    | tag => ignoreField depth m tag t bs

instance : Message DeletePetRequest where
  blank := {}
  encode m := writeText 1 m.id
  mergeField depth m tag t bs :=
    match tag with
    | 1 => setField "DeletePetRequest" "pet_id" (fun s => { m with id := s }) (readText t bs)
    | tag => ignoreField depth m tag t bs

instance : Message DeletePetResponse where
  blank := {}
  encode _ := []
  mergeField depth m tag t bs := ignoreField depth m tag t bs

end Menagerie
