import Menagerie.Proofs.Store.Steps

/-! Which handles share a store. A clone leads to the store of the handle that it was made from and every
other new handle to a store of its own, so handles lead to the same store exactly if clones relate
them. What a run has recorded about its handles is kept from step to step. -/

namespace Menagerie

namespace History

theorem Related.concat {events : History} {j k : Nat} (h : events.Related j k) (e : HandleEvent) :
    History.Related (events ++ [e]) j k := by
  induction h with
  | rel j k hcloned => exact .rel j k (List.mem_append_left [e] hcloned)
  | refl j => exact .refl j
  | symm j k _ ih => exact .symm j k ih
  | trans j k l _ _ ih ih' => exact .trans j k l ih ih'

end History

/-- One element more: an index leads to an old element or to the new one. -/
theorem getElem?_concat_eq_some_iff {α : Type} {xs : List α} {x y : α} {k : Nat} :
    (xs ++ [x])[k]? = some y ↔ xs[k]? = some y ∨ k = xs.length ∧ x = y := by
  rcases Nat.lt_trichotomy k xs.length with hk | hk | hk
  · rw [List.getElem?_append_left hk]
    exact ⟨.inl, fun h => h.resolve_right fun h => absurd h.1 (Nat.ne_of_lt hk)⟩
  · subst hk
    simp
  · rw [List.getElem?_eq_none (by simp; omega), List.getElem?_eq_none (by omega)]
    simp
    omega

namespace Handles

variable {ids : Nat → String} {events : History} {hs after : Handles} {st : HandleStep} {a : HandleAnswer}

theorem Outcome.getElem?_of_some (h : Outcome ids hs st a after) {k cell : Nat}
    (hk : hs.handles[k]? = some cell) : after.handles[k]? = some cell := by
  obtain ⟨more, hmore⟩ := h.handles_prefix
  rw [← hmore, List.getElem?_append_left (List.getElem?_eq_some_iff.mp hk).1, hk]

theorem Outcome.getElem?_of_lt (h : Outcome ids hs st a after) {k : Nat} (hk : k < hs.handles.length) :
    after.handles[k]? = hs.handles[k]? := by
  rw [List.getElem?_eq_getElem hk]
  exact h.getElem?_of_some (List.getElem?_eq_getElem hk)

theorem Outcome.through_lt (h : Outcome ids hs st a after) {k : Nat}
    (hk : HandleEvent.Through ⟨st, a⟩ k) : k < hs.handles.length := by
  rcases hk with ⟨p, hp⟩ | ⟨id, hid⟩
  · cases h.change with
    | put hput _ hcell =>
        obtain ⟨rfl, -⟩ := Prod.mk.inj (Option.some.inj (hput.symm.trans hp))
        exact (List.getElem?_eq_some_iff.mp hcell).1
    | delete hput => cases hput.symm.trans hp
    | keep hput => cases hput.symm.trans hp
  · cases h.change with
    | put _ hdelete => cases hdelete.symm.trans hid
    | delete _ hdelete hcell =>
        obtain ⟨rfl, -⟩ := Prod.mk.inj (Option.some.inj (hdelete.symm.trans hid))
        exact (List.getElem?_eq_some_iff.mp hcell).1
    | keep _ hdelete => cases hdelete.symm.trans hid

/-- What a history says about the handles, whatever ids are drawn. -/
structure Recorded (ids : Nat → String) (events : History) (hs : Handles) : Prop where
  cell_lt : ∀ (k cell : Nat), hs.handles[k]? = some cell → cell < hs.stores.length
  cloned : ∀ j k, events.Cloned j k → ∃ cell, hs.handles[j]? = some cell ∧ hs.handles[k]? = some cell
  related : ∀ (j k cell : Nat), hs.handles[j]? = some cell → hs.handles[k]? = some cell →
    events.Related j k
  through : ∀ e ∈ events, ∀ k, e.Through k → k < hs.handles.length
  drawn : ∀ e ∈ events, ∀ k p, e.put? = some (k, p) → ∃ i < hs.drawn, p.id = ids i

theorem Recorded.start : Recorded ids [] single where
  cell_lt k cell hk := by
    obtain ⟨-, rfl⟩ := List.getElem?_eq_some_iff.mp hk
    simp [single]
  cloned j k h := absurd h List.not_mem_nil
  related j k cell hj hk := by
    have hj' := (List.getElem?_eq_some_iff.mp hj).1
    have hk' := (List.getElem?_eq_some_iff.mp hk).1
    simp only [single, List.length_singleton, Nat.lt_one_iff] at hj' hk'
    rw [hj', hk']
    exact .refl 0
  through e he := absurd he List.not_mem_nil
  drawn e he := absurd he List.not_mem_nil

theorem Recorded.cell_lt_step (h : Recorded ids events hs) (hout : Outcome ids hs st a after) (k cell : Nat)
    (hk : after.handles[k]? = some cell) : cell < after.stores.length := by
  cases hout with
  | create =>
      rw [List.length_append, List.length_singleton]
      rcases getElem?_concat_eq_some_iff.mp hk with hk | ⟨-, rfl⟩
      · exact Nat.lt_succ_of_lt (h.cell_lt k cell hk)
      · exact Nat.lt_succ_self _
  | clone hj =>
      rcases getElem?_concat_eq_some_iff.mp hk with hk | ⟨-, rfl⟩
      · exact h.cell_lt k cell hk
      · exact h.cell_lt _ _ hj
  | size _ _ => exact h.cell_lt k cell hk
  | isEmpty _ _ => exact h.cell_lt k cell hk
  | request _ _ _ =>
      rw [served, List.length_set]
      exact h.cell_lt k cell hk

theorem Recorded.cloned_step (h : Recorded ids events hs) (hout : Outcome ids hs st a after) (j k : Nat)
    (hcloned : History.Cloned (events ++ [⟨st, a⟩]) j k) :
    ∃ cell, after.handles[j]? = some cell ∧ after.handles[k]? = some cell := by
  rcases List.mem_append.mp hcloned with hold | hnew
  · obtain ⟨cell, hj, hk⟩ := h.cloned j k hold
    exact ⟨cell, hout.getElem?_of_some hj, hout.getElem?_of_some hk⟩
  · obtain ⟨rfl, rfl⟩ := HandleEvent.mk.inj (List.mem_singleton.mp hnew)
    cases hout with
    | @clone _ cell hj => exact ⟨cell, by rw [List.getElem?_append_left
        (List.getElem?_eq_some_iff.mp hj).1, hj], List.getElem?_concat_length⟩

theorem Recorded.related_step (h : Recorded ids events hs) (hout : Outcome ids hs st a after)
    (j k cell : Nat) (hj : after.handles[j]? = some cell) (hk : after.handles[k]? = some cell) :
    History.Related (events ++ [⟨st, a⟩]) j k := by
  cases hout with
  | create =>
      rcases getElem?_concat_eq_some_iff.mp hj with hj | ⟨rfl, rfl⟩ <;>
        rcases getElem?_concat_eq_some_iff.mp hk with hk | ⟨rfl, hcell⟩
      · exact (h.related j k cell hj hk).concat _
      · -- no old handle leads to the new store
        exact absurd (hcell ▸ h.cell_lt j cell hj) (Nat.lt_irrefl _)
      · exact absurd (h.cell_lt k _ hk) (Nat.lt_irrefl _)
      · exact .refl _
  | @clone i cell' hi =>
      have hnew : History.Related (events ++ [⟨.clone i, .handle hs.handles.length⟩]) i
          hs.handles.length := .rel _ _ (List.mem_append_right _ (List.mem_singleton_self _))
      rcases getElem?_concat_eq_some_iff.mp hj with hj | ⟨rfl, rfl⟩ <;>
        rcases getElem?_concat_eq_some_iff.mp hk with hk | ⟨rfl, hcell⟩
      · exact (h.related j k cell hj hk).concat _
      · subst hcell
        exact .trans _ _ _ ((h.related j i _ hj hi).concat _) hnew
      · exact .trans _ _ _ (.symm _ _ hnew) ((h.related i k _ hi hk).concat _)
      · exact .refl _
  | size _ _ => exact (h.related j k cell hj hk).concat _
  | isEmpty _ _ => exact (h.related j k cell hj hk).concat _
  | request _ _ _ => exact (h.related j k cell hj hk).concat _

theorem Recorded.drawn_step (h : Recorded ids events hs) (hout : Outcome ids hs st a after)
    (e : HandleEvent) (he : e ∈ events ++ [⟨st, a⟩]) (k : Nat) (p : Pet) (hput : e.put? = some (k, p)) :
    ∃ i < after.drawn, p.id = ids i := by
  rcases List.mem_append.mp he with he | he
  · obtain ⟨i, hi, hid⟩ := h.drawn e he k p hput
    exact ⟨i, Nat.lt_of_lt_of_le hi hout.drawn_le, hid⟩
  · obtain rfl := List.mem_singleton.mp he
    cases hout.change with
    | put hput' _ _ hid _ hdrawn =>
        obtain ⟨-, rfl⟩ := Prod.mk.inj (Option.some.inj (hput'.symm.trans hput))
        exact ⟨hs.drawn, by omega, hid⟩
    | delete hput' => cases hput'.symm.trans hput
    | keep hput' => cases hput'.symm.trans hput

theorem Recorded.step (h : Recorded ids events hs) (hout : Outcome ids hs st a after) :
    Recorded ids (events ++ [⟨st, a⟩]) after where
  cell_lt := h.cell_lt_step hout
  cloned := h.cloned_step hout
  related := h.related_step hout
  through e he k hk := by
    refine Nat.lt_of_lt_of_le ?_ hout.handles_prefix.length_le
    rcases List.mem_append.mp he with he | he
    · exact h.through e he k hk
    · obtain rfl := List.mem_singleton.mp he
      exact hout.through_lt hk
  drawn := h.drawn_step hout

theorem Run.recorded (hrun : Run ids events hs) : Recorded ids events hs := by
  induction hrun with
  | start => exact .start
  | step _ next ih => exact ih.step (step_eq_some_iff.mp next)

/-- Handles are related by clones exactly if they lead to the same store. -/
theorem Recorded.related_iff (h : Recorded ids events hs) {j k cell : Nat}
    (hj : hs.handles[j]? = some cell) : events.Related j k ↔ hs.handles[k]? = some cell := by
  have hshare : ∀ j k, events.Related j k → hs.handles[j]? = hs.handles[k]? := by
    intro j k hrelated
    induction hrelated with
    | rel j k hcloned =>
        obtain ⟨cell, hj, hk⟩ := h.cloned j k hcloned
        rw [hj, hk]
    | refl j => rfl
    | symm j k _ ih => exact ih.symm
    | trans j k l _ _ ih ih' => exact ih.trans ih'
  constructor
  · intro hrelated
    rw [← hshare j k hrelated, hj]
  · exact h.related j k cell hj

end Handles

end Menagerie
