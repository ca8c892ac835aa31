import Mathlib.Data.List.Induction
import Menagerie.Proofs.Store.Locality
import Menagerie.Store.Interleaving

/-! Requests one at a time. Each puts one pet, takes one away or leaves the store as it is. As long as
every pet is put under an id of its own, the store has what it had and what was put, less what was
deleted, and no id is deleted twice. -/

namespace Menagerie

theorem Store.serve_concat (s : Store) (order : List Settlement) (x : Settlement) :
    s.serve (order ++ [x]) =
      ((s.serve order).1 ++ [((s.serve order).2.answer x.id x.request).1],
        ((s.serve order).2.answer x.id x.request).2) := by
  induction order generalizing s with
  | nil => rfl
  | cons y order ih =>
      simp only [List.cons_append, serve, ih]

namespace Settlement

variable {x : Settlement} {init s after : Store} {order : List Settlement}

/-- What a request does to a store, as its answer tells. -/
inductive Effect (x : Settlement) (s after : Store) : Prop
  | put {p : Pet} (hputs : ∀ id q, x.Puts id q ↔ p.id = id ∧ p = q) (hdeletes : ∀ id, ¬x.Deletes id)
      (hget : ∀ key, after.get? key = if key = p.id then some p else s.get? key)
  | delete {id₀ : String} (hputs : ∀ id q, ¬x.Puts id q) (hdeletes : ∀ id, x.Deletes id ↔ id = id₀)
      (hfound : (s.get? id₀).isSome)
      (hget : ∀ key, after.get? key = if key = id₀ then none else s.get? key)
  | keep (hputs : ∀ id q, ¬x.Puts id q) (hdeletes : ∀ id, ¬x.Deletes id)
      (hget : ∀ key, after.get? key = s.get? key)

/-- A refused request neither puts nor deletes. -/
theorem Effect.of_error {f : Refusal} (h : x.answer = .error f) : Effect x s s := by
  refine .keep (fun id q hputs => ?_) (fun id hdeletes => ?_) fun _ => rfl
  · cases h.symm.trans hputs.1
  · cases h.symm.trans hdeletes.2

theorem effect (h : s.answer x.id x.request = (x.answer, after)) : Effect x s after := by
  obtain ⟨n, r, id?, a⟩ := x
  have hanswered : s.Answered (id?.getD "") r a after := .of_eq h
  cases hanswered with
  | found _ =>
      refine .keep (fun id q hputs => ?_) (fun id hdeletes => ?_) fun _ => rfl
      · cases hputs.1
      · cases hdeletes.1
  | @entered r _ =>
      refine .put (p := r.pet _) (fun id q => ?_) (fun id hdeletes => ?_) (s.get?_insert _ · _)
      · constructor
        · rintro ⟨heq, hid⟩
          cases heq
          exact ⟨hid, rfl⟩
        · rintro ⟨hid, rfl⟩
          exact ⟨rfl, hid⟩
      · cases hdeletes.1
  | @removed r p hfound =>
      have hsome : (s.get? r.id).isSome := by rw [hfound, Option.isSome_some]
      refine .delete (fun id q hputs => ?_) (fun id => ?_) hsome (s.get?_erase r.id)
      · cases hputs.1
      · constructor
        · rintro ⟨heq, -⟩
          cases heq
          rfl
        · rintro rfl
          exact ⟨rfl, rfl⟩
  | refused => exact .of_error rfl

/-! ### What an order of requests leaves -/

/-- Every pet is put under an id of its own. -/
structure Distinct (init : Store) (order : List Settlement) : Prop where
  nodup : order.Nodup
  fresh : ∀ x ∈ order, ∀ id p, x.Puts id p → init.get? id = none
  put_unique : ∀ x ∈ order, ∀ y ∈ order, ∀ id p q, x.Puts id p → y.Puts id q → x = y

/-- A store has what it had and what was put, less what was deleted; only what was there was deleted,
and each id once. -/
structure Tally (init : Store) (order : List Settlement) (s : Store) : Prop where
  get?_iff : ∀ id p, s.get? id = some p ↔
    (init.get? id = some p ∨ ∃ x ∈ order, x.Puts id p) ∧ ¬∃ x ∈ order, x.Deletes id
  present : ∀ x ∈ order, ∀ id, x.Deletes id → ∃ p, init.get? id = some p ∨ ∃ y ∈ order, y.Puts id p
  delete_unique : ∀ x ∈ order, ∀ y ∈ order, ∀ id, x.Deletes id → y.Deletes id → x = y

theorem Distinct.of_concat (h : Distinct init (order ++ [x])) : Distinct init order where
  nodup := h.nodup.sublist (List.sublist_append_left order [x])
  fresh y hy := h.fresh y (List.mem_append_left [x] hy)
  put_unique y hy z hz := h.put_unique y (List.mem_append_left [x] hy) z (List.mem_append_left [x] hz)

theorem Tally.nil (init : Store) : Tally init [] init where
  get?_iff id p := by simp
  present x hx := absurd hx List.not_mem_nil
  delete_unique x hx := absurd hx List.not_mem_nil

theorem exists_mem_concat {P : Settlement → Prop} :
    (∃ y ∈ order ++ [x], P y) ↔ (∃ y ∈ order, P y) ∨ P x := by
  simp [or_and_right, exists_or]

/-- The last request deletes nothing. -/
theorem Tally.concat_of_not_deletes (h : Tally init order s) (hdeletes : ∀ id, ¬x.Deletes id)
    (hget : ∀ id p, after.get? id = some p ↔
      (init.get? id = some p ∨ (∃ y ∈ order, y.Puts id p) ∨ x.Puts id p) ∧ ¬∃ y ∈ order, y.Deletes id) :
    Tally init (order ++ [x]) after where
  get?_iff id p := by
    rw [exists_mem_concat, exists_mem_concat, or_iff_left (hdeletes id)]
    exact hget id p
  present y hy id hyd := by
    rcases List.mem_append.mp hy with hy | hy
    · obtain ⟨p, hp⟩ := h.present y hy id hyd
      exact ⟨p, hp.imp_right fun hp => exists_mem_concat.mpr (.inl hp)⟩
    · obtain rfl := List.mem_singleton.mp hy
      exact absurd hyd (hdeletes id)
  delete_unique y hy z hz id hyd hzd := by
    rcases List.mem_append.mp hy with hy | hy
    · rcases List.mem_append.mp hz with hz | hz
      · exact h.delete_unique y hy z hz id hyd hzd
      · obtain rfl := List.mem_singleton.mp hz
        exact absurd hzd (hdeletes id)
    · obtain rfl := List.mem_singleton.mp hy
      exact absurd hyd (hdeletes id)

/-- The last request puts a pet under an id that was never in use. -/
theorem Tally.concat_put (h : Tally init order s) {p : Pet}
    (hputs : ∀ id q, x.Puts id q ↔ p.id = id ∧ p = q) (hdeletes : ∀ id, ¬x.Deletes id)
    (hget : ∀ key, after.get? key = if key = p.id then some p else s.get? key)
    (hunused : ∀ q, ¬(init.get? p.id = some q ∨ ∃ y ∈ order, y.Puts p.id q)) :
    Tally init (order ++ [x]) after := by
  refine h.concat_of_not_deletes hdeletes fun id q => ?_
  rw [hget, hputs]
  by_cases hid : id = p.id
  · subst hid
    have hkept : ¬∃ y ∈ order, y.Deletes p.id := by
      rintro ⟨y, hy, hyd⟩
      obtain ⟨r, hr⟩ := h.present y hy p.id hyd
      exact hunused r hr
    rw [if_pos rfl, ← or_assoc, or_iff_right (hunused q)]
    exact ⟨fun heq => ⟨⟨rfl, Option.some.inj heq⟩, hkept⟩, fun hq => congrArg some hq.1.2⟩
  · rw [if_neg hid, or_iff_left fun hq : p.id = id ∧ p = q => hid hq.1.symm]
    exact h.get?_iff id q

/-- The last request takes away a pet that was there. -/
theorem Tally.concat_delete (h : Tally init order s) {id₀ : String}
    (hputs : ∀ id q, ¬x.Puts id q) (hdeletes : ∀ id, x.Deletes id ↔ id = id₀)
    (hfound : (s.get? id₀).isSome)
    (hget : ∀ key, after.get? key = if key = id₀ then none else s.get? key) :
    Tally init (order ++ [x]) after := by
  obtain ⟨p, hp⟩ := Option.isSome_iff_exists.mp hfound
  obtain ⟨hthere, hkept⟩ := (h.get?_iff id₀ p).mp hp
  refine ⟨fun id q => ?_, fun y hy id hyd => ?_, fun y hy z hz id hyd hzd => ?_⟩
  · rw [hget, exists_mem_concat, exists_mem_concat, hdeletes, or_iff_left (hputs id q)]
    by_cases hid : id = id₀
    · rw [if_pos hid]
      exact iff_of_false nofun fun hq => hq.2 (.inr hid)
    · rw [if_neg hid, or_iff_left hid]
      exact h.get?_iff id q
  · rcases List.mem_append.mp hy with hy | hy
    · obtain ⟨q, hq⟩ := h.present y hy id hyd
      exact ⟨q, hq.imp_right fun hq => exists_mem_concat.mpr (.inl hq)⟩
    · obtain rfl := List.mem_singleton.mp hy
      obtain rfl := (hdeletes id).mp hyd
      exact ⟨p, hthere.imp_right fun hq => exists_mem_concat.mpr (.inl hq)⟩
  · rcases List.mem_append.mp hy with hy' | hy' <;> rcases List.mem_append.mp hz with hz' | hz'
    · exact h.delete_unique y hy' z hz' id hyd hzd
    · obtain rfl := List.mem_singleton.mp hz'
      obtain rfl := (hdeletes id).mp hzd
      exact absurd ⟨y, hy', hyd⟩ hkept
    · obtain rfl := List.mem_singleton.mp hy'
      obtain rfl := (hdeletes id).mp hyd
      exact absurd ⟨z, hz', hzd⟩ hkept
    · exact (List.mem_singleton.mp hy').trans (List.mem_singleton.mp hz').symm

theorem Tally.concat (h : Tally init order s) (hdistinct : Distinct init (order ++ [x]))
    (heffect : Effect x s after) : Tally init (order ++ [x]) after := by
  have hlast : x ∈ order ++ [x] := List.mem_append_right order (List.mem_singleton_self x)
  cases heffect with
  | @put p hputs hdeletes hget =>
      have hx : x.Puts p.id p := (hputs p.id p).mpr ⟨rfl, rfl⟩
      refine h.concat_put hputs hdeletes hget fun q hused => ?_
      rcases hused with hq | ⟨y, hy, hyputs⟩
      · cases (hdistinct.fresh x hlast p.id p hx).symm.trans hq
      · obtain rfl := hdistinct.put_unique y (List.mem_append_left [x] hy) x hlast p.id q p hyputs hx
        exact (List.nodup_append.mp hdistinct.nodup).2.2 y hy y (List.mem_singleton_self y) rfl
  | delete hputs hdeletes hfound hget => exact h.concat_delete hputs hdeletes hfound hget
  | keep hputs hdeletes hget =>
      refine h.concat_of_not_deletes hdeletes fun id p => ?_
      rw [hget, or_iff_left (hputs id p)]
      exact h.get?_iff id p

theorem Distinct.tally (hdistinct : Distinct init order)
    (hserve : (init.serve order).1 = order.map (·.answer)) : Tally init order (init.serve order).2 := by
  induction order using List.reverseRecOn with
  | nil => exact .nil init
  | append_singleton order x ih =>
      rw [Store.serve_concat, List.map_append] at hserve
      obtain ⟨hserve, hlast⟩ := List.append_inj' hserve rfl
      have hanswer : (init.serve order).2.answer x.id x.request =
          (x.answer, (init.serve (order ++ [x])).2) := by
        rw [Store.serve_concat]
        exact Prod.ext (List.singleton_inj.mp hlast) rfl
      exact (ih hdistinct.of_concat hserve).concat hdistinct (effect hanswer)

end Settlement

end Menagerie
