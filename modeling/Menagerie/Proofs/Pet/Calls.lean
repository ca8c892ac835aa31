import Mathlib.Data.Set.Function
import Mathlib.Order.Interval.Set.Basic
import Menagerie.Pet.Calls
import Menagerie.Proofs.Pet.Layout
import Menagerie.Proofs.Store.Locality

/-! Requests and responses stand for the octets that are written for them. A service answers a request as its
store does. What a call does to the pets of a service is nothing if the call fails or only looks, and else
one pet more or one less; what holds of the pets is kept. -/

namespace Menagerie

/-! ### Requests and responses as octets -/

theorem exists_of_map_eq_ok {ε α β : Type} {f : α → β} {x : Except ε α} {b : β}
    (h : x.map f = .ok b) : ∃ a, f a = b := by
  cases x with
  | error e => cases h
  | ok a => exact ⟨a, Except.ok.inj h⟩

theorem PetMethod.method_of_read {m : PetMethod} {payload : List UInt8} {r : PetRequest}
    (h : m.read payload = .ok r) : r.method = m := by
  cases m with
  | get | put | delete =>
      obtain ⟨r, rfl⟩ := exists_of_map_eq_ok h
      rfl

/-- The octets of a request stand for it. -/
theorem PetRequest.read_encode (r : PetRequest) (hlength : r.encode.length < UInt64.size) :
    PetMethod.read r.encode r.method = .ok r := by
  cases r with
  | get r => exact congrArg (Except.map PetRequest.get) (r.decode_encode hlength)
  | put r => exact congrArg (Except.map PetRequest.put) (r.decode_encode hlength)
  | delete r => exact congrArg (Except.map PetRequest.delete) (r.decode_encode hlength)

/-- The octets of a response are read again as what answered the request. -/
theorem Store.Answered.readResponse_encode {s after : Store} {id : String} {r : PetRequest}
    {response : PetResponse} (h : s.Answered id r (.ok response) after)
    (hlength : response.encode.length < UInt64.size) :
    r.method.readResponse response.encode = .ok response := by
  cases h with
  | found hfound => exact congrArg (Except.map PetResponse.get) (GetPetResponse.decode_encode _ hlength)
  | entered hnamed => exact congrArg (Except.map PetResponse.put) (PutPetResponse.decode_encode _ hlength)
  | removed hfound => rfl

theorem PetRequest.drawsId_of_refused {s : Store} {id : String} {r : PetRequest} {f : Refusal}
    (h : (s.answer id r).1 = .error f) : r.drawsId = false := by
  cases r with
  | get | delete => rfl
  | put r =>
      cases hnamed : r.isNamed with
      | false => exact hnamed
      | true => simp [Store.answer, hnamed] at h

namespace PetService

variable {ids : Nat → String} {s after : PetService}

/-! ### One call -/

theorem reply_of_ok {r : PetRequest} {response : PetResponse} {store : Store}
    (h : s.store.answer (ids s.drawn) r = (.ok response, store)) :
    s.reply ids (.ok r) = (.ok response.encode, ⟨store, if r.drawsId then s.drawn + 1 else s.drawn⟩) := by
  simp only [reply, answer, h]
  rfl

theorem reply_of_refused {r : PetRequest} {f : Refusal} {store : Store}
    (h : s.store.answer (ids s.drawn) r = (.error f, store)) :
    s.reply ids (.ok r) = (.error (.refused f), ⟨store, if r.drawsId then s.drawn + 1 else s.drawn⟩) := by
  simp only [reply, answer, h]
  rfl

/-- What a call does to a service, and the method by which it succeeded: nothing if it fails or only looks,
else it enters the pet of a request under the next id, or removes one that is there. -/
inductive Called (ids : Nat → String) (s : PetService) : Option PetMethod → PetService → Prop
  | failed : s.Called ids none s
  | found : s.Called ids (some .get) s
  | entered {r : PutPetRequest} (hnamed : r.isNamed = true) :
    s.Called ids (some .put) ⟨s.store.insert (ids s.drawn) (r.pet (ids s.drawn)), s.drawn + 1⟩
  | removed {id : String} {p : Pet} (hfound : s.store.get? id = some p) :
    s.Called ids (some .delete) ⟨s.store.erase id, s.drawn⟩

theorem called_reply (ids : Nat → String) (s : PetService) {m : PetMethod}
    {request : Except Rpc.Failure PetRequest} (hmethod : ∀ r, request = .ok r → r.method = m) :
    s.Called ids (if (s.reply ids request).1.isOk then some m else none) (s.reply ids request).2 := by
  cases request with
  | error f => exact .failed
  | ok r =>
      obtain rfl := hmethod r rfl
      generalize hanswer : s.store.answer (ids s.drawn) r = x
      obtain ⟨a, store⟩ := x
      cases Store.Answered.of_eq hanswer with
      | found hfound =>
          rw [reply_of_ok hanswer]
          exact .found
      | entered hnamed =>
          rw [reply_of_ok hanswer]
          simp only [PetRequest.drawsId, hnamed]
          exact .entered hnamed
      | removed hfound =>
          rw [reply_of_ok hanswer]
          exact .removed hfound
      | refused =>
          rw [reply_of_refused hanswer, PetRequest.drawsId_of_refused (congrArg Prod.fst hanswer)]
          exact .failed

variable {granted : Option PetMethod}

theorem Called.drawn_le (h : s.Called ids granted after) : s.drawn ≤ after.drawn := by
  cases h with
  | entered => exact Nat.le_succ s.drawn
  | _ => exact Nat.le_refl s.drawn

/-- What holds of the pets of a service: each stands under its own id, and has a name that shows. -/
structure Sound (s : PetService) : Prop where
  id_eq : ∀ id p, s.store.get? id = some p → p.id = id
  named : ∀ id p, s.store.get? id = some p → ∃ c ∈ p.name.toList, Text.isBlank c = false

theorem Called.sound (h : s.Called ids granted after) (hs : s.Sound) : after.Sound := by
  cases h with
  | failed => exact hs
  | found => exact hs
  | entered hnamed =>
      constructor <;> intro id p hp <;> rw [Store.get?_insert] at hp <;> split at hp
      · next hid =>
          obtain rfl := Option.some.inj hp
          exact hid.symm
      · exact hs.id_eq id p hp
      · obtain rfl := Option.some.inj hp
        exact (PutPetRequest.isNamed_iff _).mp hnamed
      · exact hs.named id p hp
  | removed hfound =>
      constructor <;> intro id p hp <;> rw [Store.get?_erase] at hp <;> split at hp
      · cases hp
      · exact hs.id_eq id p hp
      · cases hp
      · exact hs.named id p hp

/-- A pet more is there after a put that succeeds, if its id is new, and one less after a delete. -/
theorem Called.size (h : s.Called ids granted after)
    (hfresh : s.drawn < after.drawn → s.store.get? (ids s.drawn) = none) :
    after.store.size + (if granted = some .delete then 1 else 0) =
      s.store.size + (if granted = some .put then 1 else 0) := by
  cases h with
  | failed => rfl
  | found => rfl
  | @entered r hnamed =>
      have hsize := s.store.size_insert (ids s.drawn) (r.pet (ids s.drawn))
      rw [hfresh (Nat.lt_succ_self s.drawn)] at hsize
      exact hsize
  | @removed id p hfound =>
      have hsize := s.store.size_erase id
      rw [hfound] at hsize
      exact hsize

/-- An id that is drawn later is not there after a call, if it was not there before. -/
theorem Called.fresh (h : s.Called ids granted after) {last : Nat}
    (hids : Set.InjOn ids (Set.Ico s.drawn last))
    (hfresh : ∀ n ∈ Set.Ico s.drawn last, s.store.get? (ids n) = none) (hlast : after.drawn ≤ last) :
    ∀ n ∈ Set.Ico after.drawn last, after.store.get? (ids n) = none := by
  cases h with
  | failed => exact hfresh
  | found => exact hfresh
  | entered hnamed =>
      rintro n ⟨hn, hlt⟩
      have hn : s.drawn + 1 ≤ n := hn
      have hmem : n ∈ Set.Ico s.drawn last := ⟨Nat.le_of_succ_le hn, hlt⟩
      have hne : ids n ≠ ids s.drawn := by
        intro heq
        have hsame := hids hmem ⟨Nat.le_refl s.drawn, hlast⟩ heq
        omega
      rw [Store.get?_insert, if_neg hne]
      exact hfresh n hmem
  | removed hfound =>
      intro n hn
      rw [Store.get?_erase]
      split
      · rfl
      · exact hfresh n hn

end PetService

end Menagerie
