import Menagerie.Pet.Layout
import Menagerie.Proofs.Wire.Message

/-! Pets, requests and responses are read as they were written, if their lengths fit in 64 bits. -/

namespace Menagerie

open Wire

theorem Pet.merges_encode (p : Pet) {depth stop : Nat} {rest : List UInt8} (hstop : stop ≤ rest.length)
    (hp : (Message.encode p).length < UInt64.size) :
    Merges (Message.mergeField depth) stop Message.blank (Message.encode p ++ rest) p rest := by
  have hencode : Message.encode p = writeInt32 1 p.kind ++ writeText 2 p.id ++ writeText 3 p.name := rfl
  have hid := length_octets_le_writeText 2 p.id
  have hname := length_octets_le_writeText 3 p.name
  rw [hencode] at hp ⊢
  simp only [List.length_append] at hp
  rw [List.append_assoc, List.append_assoc]
  -- Each field is read in front of those that are written later.
  refine .trans (.writeInt32 (by decide) (by decide) ?_ (fun kind => ({ kind } : Pet)) rfl (fun _ => rfl) _) ?_
  · simp only [List.length_append]
    omega
  refine .trans (.writeText (by decide) (by decide) ?_ (fun id => ({ kind := p.kind, id } : Pet)) rfl
    (fun _ => rfl) (by omega)) ?_
  · simp only [List.length_append]
    omega
  exact .writeText (by decide) (by decide) hstop (fun name => ({ p with name } : Pet)) rfl
    (fun _ => rfl) (by omega)

theorem GetPetRequest.decode_encode (r : GetPetRequest) (hr : (Message.encode r).length < UInt64.size) :
    decode GetPetRequest (Message.encode r) = .ok r :=
  decode_writeText (by decide) (by decide) GetPetRequest.mk rfl (fun _ => rfl) hr

theorem DeletePetRequest.decode_encode (r : DeletePetRequest)
    (hr : (Message.encode r).length < UInt64.size) :
    decode DeletePetRequest (Message.encode r) = .ok r :=
  decode_writeText (by decide) (by decide) DeletePetRequest.mk rfl (fun _ => rfl) hr

theorem PutPetRequest.decode_encode (r : PutPetRequest) (hr : (Message.encode r).length < UInt64.size) :
    decode PutPetRequest (Message.encode r) = .ok r := by
  have hencode : Message.encode r = writeInt32 1 r.kind ++ (writeText 2 r.name ++ []) := by
    rw [List.append_nil]
    rfl
  have hname := length_octets_le_writeText 2 r.name
  rw [hencode] at hr ⊢
  simp only [List.length_append] at hr
  have hmerges : Merges (Message.mergeField depthLimit) 0 (Message.blank : PutPetRequest)
      (writeInt32 1 r.kind ++ (writeText 2 r.name ++ [])) r [] := by
    refine .trans (.writeInt32 (by decide) (by decide) (Nat.zero_le _)
      (fun kind => ({ kind } : PutPetRequest)) rfl (fun _ => rfl) _) ?_
    exact .writeText (by decide) (by decide) (Nat.le_refl 0)
      (fun name => ({ r with name } : PutPetRequest)) rfl (fun _ => rfl) (by omega)
  exact hmerges.merge_eq

theorem GetPetResponse.decode_encode (r : GetPetResponse)
    (hr : (Message.encode r).length < UInt64.size) :
    decode GetPetResponse (Message.encode r) = .ok r := by
  obtain ⟨_ | p⟩ := r
  · rfl
  · have hp := Nat.lt_of_le_of_lt (length_encode_le_writeEmbedded 1 p) hr
    exact decode_writeEmbedded (by decide) (by decide) (fun p => GetPetResponse.mk (some p)) (fun _ => rfl) hr
      (p.merges_encode (Nat.le_refl 0) hp)

theorem PutPetResponse.decode_encode (r : PutPetResponse)
    (hr : (Message.encode r).length < UInt64.size) :
    decode PutPetResponse (Message.encode r) = .ok r := by
  obtain ⟨_ | p⟩ := r
  · rfl
  · have hp := Nat.lt_of_le_of_lt (length_encode_le_writeEmbedded 1 p) hr
    exact decode_writeEmbedded (by decide) (by decide) (fun p => PutPetResponse.mk (some p)) (fun _ => rfl) hr
      (p.merges_encode (Nat.le_refl 0) hp)

end Menagerie
