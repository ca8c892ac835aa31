import Menagerie.Store

/-! A request concerns one id. Its answer hangs on the pet under that id alone, and the entry of that id
is the only one that it can touch. The size of a store moves by one when an entry comes or goes. -/

namespace Menagerie

namespace PetRequest

/-- The id that a request concerns; `id` is the one drawn for a put. -/
def subject (id : String) : PetRequest → String
  | get r => r.id
  | put _ => id
  | delete r => r.id

/-- The answer to a request, and what it leaves under its subject, where `found` was. -/
def effect (id : String) (found : Option Pet) : PetRequest → Except Refusal PetResponse × Option Pet
  | get r => (found.elim (.error (.notFound r.id)) fun p => .ok (.get ⟨some p⟩), found)
  | put r =>
    if r.isNamed then (.ok (.put ⟨some (r.pet id)⟩), some (r.pet id)) else (.error .blankName, found)
  | delete r => (found.elim (.error (.notFound r.id)) fun _ => .ok (.delete {}), none)

theorem isNamed_of_effect {q : PutPetRequest} {id : String} {found : Option Pet} {reply : PetResponse}
    (h : ((put q).effect id found).1 = .ok reply) : q.isNamed = true := by
  simp only [effect] at h
  split at h
  · assumption
  · cases h

/-- A put under a new id, or a delete, that is granted leaves something else under its subject. -/
theorem effect_snd_ne {r : PetRequest} {id : String} {found : Option Pet} {reply : PetResponse}
    (hreply : (r.effect id found).1 = .ok reply) (hget : ∀ g, r ≠ .get g)
    (hput : ∀ q, r = .put q → found = none) : (r.effect id found).2 ≠ found := by
  cases r with
  | get g => exact absurd rfl (hget g)
  | put q =>
      rw [hput q rfl]
      simp [effect, isNamed_of_effect hreply]
  | delete d =>
      cases found with
      | none => cases hreply
      | some p => nofun

end PetRequest

theorem PutPetRequest.isNamed_iff (r : PutPetRequest) :
    r.isNamed ↔ ∃ c ∈ r.name.toList, Text.isBlank c = false := by
  simp [isNamed, Text.allBlank]

namespace Store

theorem answer_fst (s : Store) (id : String) (r : PetRequest) :
    (s.answer id r).1 = (r.effect id (s.get? (r.subject id))).1 := by
  cases r with
  | get r =>
      simp only [answer, PetRequest.effect, PetRequest.subject]
      cases s.get? r.id <;> rfl
  | put r =>
      simp only [answer, PetRequest.effect]
      split <;> rfl
  | delete r =>
      simp only [answer, PetRequest.effect, PetRequest.subject]
      cases s.get? r.id <;> rfl

theorem get?_answer (s : Store) (id : String) (r : PetRequest) (key : String) :
    (s.answer id r).2.get? key =
      if key = r.subject id then (r.effect id (s.get? key)).2 else s.get? key := by
  cases r with
  | get r =>
      simp only [answer, PetRequest.effect, ite_self]
      cases s.get? r.id <;> rfl
  | put r =>
      simp only [answer, PetRequest.effect, PetRequest.subject]
      split <;> simp
  | delete r =>
      change _ = if key = r.id then none else s.get? key
      simp only [answer]
      cases h : s.get? r.id with
      | none =>
          by_cases hkey : key = r.id
          · rw [if_pos hkey, hkey]
            exact h
          · rw [if_neg hkey]
      | some p => exact get?_erase s r.id key

/-- Every way in which a store answers a request. -/
inductive Answered (s : Store) (id : String) :
    PetRequest → Except Refusal PetResponse → Store → Prop
  | found {r : GetPetRequest} {p : Pet} (hfound : s.get? r.id = some p) :
      Answered s id (.get r) (.ok (.get ⟨some p⟩)) s
  | entered {r : PutPetRequest} (hnamed : r.isNamed = true) :
      Answered s id (.put r) (.ok (.put ⟨some (r.pet id)⟩)) (s.insert id (r.pet id))
  | removed {r : DeletePetRequest} {p : Pet} (hfound : s.get? r.id = some p) :
      Answered s id (.delete r) (.ok (.delete {})) (s.erase r.id)
  | refused {r : PetRequest} {f : Refusal} : Answered s id r (.error f) s

theorem Answered.of_eq {s after : Store} {id : String} {r : PetRequest}
    {a : Except Refusal PetResponse} (h : s.answer id r = (a, after)) : s.Answered id r a after := by
  cases r with
  | get r =>
      simp only [answer] at h
      cases hfound : s.get? r.id with
      | none =>
          rw [hfound] at h
          obtain ⟨rfl, rfl⟩ := Prod.mk.inj h
          exact .refused
      | some p =>
          rw [hfound] at h
          obtain ⟨rfl, rfl⟩ := Prod.mk.inj h
          exact .found hfound
  | put r =>
      simp only [answer] at h
      split at h
      · next hnamed =>
          obtain ⟨rfl, rfl⟩ := Prod.mk.inj h
          exact .entered hnamed
      · obtain ⟨rfl, rfl⟩ := Prod.mk.inj h
        exact .refused
  | delete r =>
      simp only [answer] at h
      cases hfound : s.get? r.id with
      | none =>
          rw [hfound] at h
          obtain ⟨rfl, rfl⟩ := Prod.mk.inj h
          exact .refused
      | some p =>
          rw [hfound] at h
          obtain ⟨rfl, rfl⟩ := Prod.mk.inj h
          exact .removed hfound

theorem answer_of_error {s : Store} {id : String} {r : PetRequest} {f : Refusal}
    (h : (s.answer id r).1 = .error f) : (s.answer id r).2 = s := by
  generalize hafter : (s.answer id r).2 = after
  cases Answered.of_eq (Prod.ext h hafter) with
  | refused => rfl

@[simp] theorem answer_get_snd (s : Store) (id : String) (r : GetPetRequest) :
    (s.answer id (.get r)).2 = s := by
  generalize hanswer : s.answer id (.get r) = x
  obtain ⟨a, after⟩ := x
  cases Answered.of_eq hanswer with
  | found _ => rfl
  | refused => rfl

/-! ### Sizes -/

/-- Among entries with different ids, at most the one found is filtered out. -/
theorem length_filter_ne (id : String) {es : List (String × Pet)} (hes : (es.map (·.1)).Nodup) :
    (es.filter (·.1 ≠ id)).length + (es.find? (·.1 = id)).toList.length = es.length := by
  induction es with
  | nil => rfl
  | cons e es ih =>
      rw [List.map_cons, List.nodup_cons] at hes
      by_cases he : e.1 = id
      · have hrest : es.filter (·.1 ≠ id) = es := by
          refine List.filter_eq_self.2 fun x hx => ?_
          have hne : x.1 ≠ e.1 := fun heq => hes.1 (heq ▸ List.mem_map_of_mem hx)
          simpa [he] using hne
        rw [List.filter_cons_of_neg (by simp [he]), List.find?_cons_of_pos (by simp [he]), hrest]
        rfl
      · have hrest := ih hes.2
        rw [List.filter_cons_of_pos (by simp [he]), List.find?_cons_of_neg (by simp [he]),
          List.length_cons, List.length_cons]
        omega

theorem size_erase (s : Store) (id : String) :
    (s.erase id).size + (s.get? id).toList.length = s.size := by
  have h := length_filter_ne id s.nodup_ids
  rw [get?, size, size, erase, Option.toList_map, List.length_map]
  exact h

theorem size_insert (s : Store) (id : String) (p : Pet) :
    (s.insert id p).size + (s.get? id).toList.length = s.size + 1 := by
  rw [← size_erase s id]
  simp only [size, insert, List.length_cons]
  omega

theorem isEmpty_eq (s : Store) : s.isEmpty = decide (s.size = 0) := by
  cases h : s.entries <;> simp [isEmpty, size, h]

end Store

end Menagerie
