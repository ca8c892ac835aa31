import Mathlib.Data.List.FinRange
import Mathlib.Data.List.Sort
import Menagerie.Proofs.Store.Steps
import Menagerie.Store.Calls

/-! Calls that do not conflict may change places. The answer to a call hangs on the entry that it
concerns, and an entry on the calls that touched it, in their order. An order that keeps the conflicting
pairs keeps these calls, and has the same of them before every call that they matter to. -/

namespace Menagerie

section

variable {α : Type} {xs : List α} {σ : Equiv.Perm (Fin xs.length)}

theorem getElem?_reorder (xs : List α) (σ : Equiv.Perm (Fin xs.length)) (i : Fin xs.length) :
    (reorder xs σ)[(σ i).val]? = some (xs.get i) := by
  simp [reorder]

theorem length_reorder (xs : List α) (σ : Equiv.Perm (Fin xs.length)) :
    (reorder xs σ).length = xs.length := by
  rw [reorder, List.length_map, List.length_finRange]

theorem mem_take_finRange {n m : Nat} {k : Fin n} : k ∈ (List.finRange n).take m ↔ k.val < m := by
  rw [List.mem_take_iff_getElem]
  constructor
  · rintro ⟨j, hj, hjk⟩
    rw [← hjk, List.getElem_finRange]
    exact (Nat.lt_min.mp hj).1
  · intro hk
    refine ⟨k.val, Nat.lt_min.mpr ⟨hk, ?_⟩, ?_⟩
    · rw [List.length_finRange]
      exact k.isLt
    · rw [List.getElem_finRange]
      rfl

/-- The chosen elements among the first ones stay the same, in the same order. -/
theorem filter_take_reorder (P : α → Bool) {m m' : Nat}
    (hmono : ∀ j k, j < k → P (xs.get j) → P (xs.get k) → σ j < σ k)
    (hbound : ∀ k : Fin xs.length, P (xs.get k) → (k.val < m ↔ (σ k).val < m')) :
    ((reorder xs σ).take m').filter P = (xs.take m).filter P := by
  have hsame : ((List.finRange xs.length).take m').filter (P ∘ fun k => xs.get (σ.symm k)) =
      (((List.finRange xs.length).take m).filter (P ∘ xs.get)).map σ := by
    refine List.Pairwise.eq_of_mem_iff (r := (· < ·)) ?_ ?_ fun k => ?_
    · exact (List.pairwise_lt_finRange _).take.filter _
    · rw [List.pairwise_map]
      refine List.Pairwise.imp_of_mem ?_ ((List.pairwise_lt_finRange _).take.filter _)
      intro j k hj hk hjk
      exact hmono j k hjk (List.mem_filter.mp hj).2 (List.mem_filter.mp hk).2
    · rw [List.mem_filter, mem_take_finRange, List.mem_map]
      constructor
      · rintro ⟨hk, hP⟩
        refine ⟨σ.symm k, List.mem_filter.mpr ⟨mem_take_finRange.mpr ?_, hP⟩, σ.apply_symm_apply k⟩
        rw [hbound _ hP, σ.apply_symm_apply]
        exact hk
      · rintro ⟨j, hj, rfl⟩
        obtain ⟨hj, hP⟩ := List.mem_filter.mp hj
        rw [Function.comp_apply, σ.symm_apply_apply]
        exact ⟨(hbound j hP).mp (mem_take_finRange.mp hj), hP⟩
  calc ((reorder xs σ).take m').filter P
      = (((List.finRange xs.length).take m').filter (P ∘ fun k => xs.get (σ.symm k))).map
          fun k => xs.get (σ.symm k) := by rw [reorder, ← List.map_take, List.filter_map]
    _ = (((List.finRange xs.length).take m).filter (P ∘ xs.get)).map xs.get := by
        rw [hsame, List.map_map]
        simp [Function.comp_def]
    _ = (xs.take m).filter P := by rw [← List.filter_map, List.map_take, List.map_get_finRange]

end

namespace HandleCall

variable {c : HandleCall} {key : String} {found found' : Option Pet}

theorem subject_eq (h : c.subject? = some key) : c.request.subject c.id = key := by
  obtain ⟨k, id, r⟩ := c
  cases r with
  | get r => exact Option.some.inj h
  | put r =>
      simp only [subject?, Option.ite_none_right_eq_some] at h
      exact Option.some.inj h.2
  | delete r => exact Option.some.inj h

theorem effect_fst_congr (h : ∀ key, c.subject? = some key → found = found') :
    (c.request.effect c.id found).1 = (c.request.effect c.id found').1 := by
  obtain ⟨k, id, r⟩ := c
  cases r with
  | get r => rw [h r.id rfl]
  | put r =>
      simp only [PetRequest.effect]
      split <;> rfl
  | delete r => rw [h r.id rfl]

/-- A call that looks, or concerns no id, leaves what was there. -/
theorem effect_snd (h : c.subject? = none ∨ c.looks = true) : (c.request.effect c.id found).2 = found := by
  obtain ⟨k, id, r⟩ := c
  cases r with
  | get r => rfl
  | put r =>
      rcases h with h | h
      · simp only [subject?, ite_eq_right_iff] at h
        simp only [PetRequest.effect]
        split
        · next hnamed => cases h hnamed
        · rfl
      · cases h
  | delete r => rcases h with h | h <;> cases h

end HandleCall

namespace Handles

variable {hs hs' : Handles} {c : HandleCall} {cell : Nat} {key : String}

/-- The place of the store that a handle leads to. -/
def cell? (hs : Handles) (k : Nat) : Option Nat :=
  (hs.handles[k]?).filter fun cell => cell < hs.stores.length

theorem cell?_eq_some_iff {k : Nat} :
    hs.cell? k = some cell ↔ hs.handles[k]? = some cell ∧ ∃ s, hs.stores[cell]? = some s := by
  rw [cell?, Option.filter_eq_some_iff, decide_eq_true_iff, ← Option.isSome_iff_exists, isSome_getElem?]

theorem isSome_cell? (hs : Handles) (k : Nat) : (hs.cell? k).isSome = (hs.store? k).isSome := by
  rw [Bool.eq_iff_iff, Option.isSome_iff_exists, Option.isSome_iff_exists]
  simp only [cell?_eq_some_iff, store?_eq_some_iff]
  constructor
  · rintro ⟨cell, hk, s, hcell⟩
    exact ⟨s, cell, hk, hcell⟩
  · rintro ⟨s, cell, hk, hcell⟩
    exact ⟨cell, hk, s, hcell⟩

/-- The call can change the entry of an id in a store. -/
def touches (hs : Handles) (cell : Nat) (key : String) (c : HandleCall) : Bool :=
  decide (hs.cell? c.handle = some cell ∧ c.subject? = some key) && !c.looks

theorem touches_eq_true_iff : hs.touches cell key c = true ↔
    hs.cell? c.handle = some cell ∧ c.subject? = some key ∧ c.looks = false := by
  simp [touches, and_assoc]

/-! ### One call -/

theorem call_cases (hs : Handles) (c : HandleCall) :
    (hs.cell? c.handle = none ∧ hs.call c = (none, hs)) ∨
      ∃ cell s, hs.cell? c.handle = some cell ∧ hs.stores[cell]? = some s ∧
        hs.call c = (some (.ofReply (s.answer c.id c.request).1),
          hs.served (fun _ => c.id) cell s c.request) := by
  cases hc : hs.cell? c.handle with
  | some cell =>
      obtain ⟨hk, s, hcell⟩ := cell?_eq_some_iff.mp hc
      refine .inr ⟨cell, s, rfl, hcell, ?_⟩
      rw [call, step_request c.request hk hcell]
  | none =>
      refine .inl ⟨rfl, ?_⟩
      cases hstep : hs.step (fun _ => c.id) (.request c.handle c.request) with
      | none => rw [call, hstep]
      | some x =>
          obtain ⟨a, after⟩ := x
          cases step_eq_some_iff.mp hstep with
          | @request _ cell s _ hk hcell =>
              rw [cell?_eq_some_iff.mpr ⟨hk, s, hcell⟩] at hc
              cases hc

@[simp] theorem cell?_call (hs : Handles) (c : HandleCall) (k : Nat) :
    (hs.call c).2.cell? k = hs.cell? k := by
  rcases hs.call_cases c with ⟨-, hcall⟩ | ⟨cell, s, -, -, hcall⟩
  · rw [hcall]
  · rw [hcall, cell?, cell?]
    simp only [served, List.length_set]

theorem call_fst (hs : Handles) (c : HandleCall) :
    (hs.call c).1 = (hs.cell? c.handle).map fun cell =>
      .ofReply (c.request.effect c.id (hs.contents cell (c.request.subject c.id))).1 := by
  rcases hs.call_cases c with ⟨hnone, hcall⟩ | ⟨cell, s, hc, hcell, hcall⟩
  · rw [hcall, hnone, Option.map_none]
  · rw [hcall, hc, Option.map_some, contents_eq hcell, Store.answer_fst]

/-- The answer hangs on the entry that the call concerns. -/
theorem call_fst_congr (hcells : hs'.cell? c.handle = hs.cell? c.handle)
    (hentry : ∀ cell key, hs.cell? c.handle = some cell → c.subject? = some key →
      hs'.contents cell key = hs.contents cell key) : (hs'.call c).1 = (hs.call c).1 := by
  rw [call_fst, call_fst, hcells]
  cases hc : hs.cell? c.handle with
  | none => rfl
  | some cell =>
      rw [Option.map_some, Option.map_some]
      refine congrArg (fun a => some (HandleAnswer.ofReply a)) (c.effect_fst_congr fun key hkey => ?_)
      rw [c.subject_eq hkey]
      exact hentry cell key hc hkey

theorem contents_call (hs : Handles) (c : HandleCall) (cell : Nat) (key : String) :
    (hs.call c).2.contents cell key =
      if hs.touches cell key c then (c.request.effect c.id (hs.contents cell key)).2
      else hs.contents cell key := by
  rcases hs.call_cases c with ⟨hnone, hcall⟩ | ⟨place, s, hc, hcell, hcall⟩
  · rw [hcall, touches, hnone]
    rfl
  · rw [hcall, contents_served _ hcell]
    by_cases htouches : hs.touches cell key c = true
    · obtain ⟨hcell', hkey, -⟩ := touches_eq_true_iff.mp htouches
      obtain rfl : cell = place := Option.some.inj (hcell'.symm.trans hc)
      rw [if_pos htouches, if_pos ⟨rfl, (c.subject_eq hkey).symm⟩]
    · rw [if_neg htouches]
      by_cases hhit : cell = place ∧ key = c.request.subject c.id
      · rw [if_pos hhit]
        obtain ⟨rfl, rfl⟩ := hhit
        apply HandleCall.effect_snd
        cases hsubject : c.subject? with
        | none => exact .inl rfl
        | some key =>
            obtain rfl := c.subject_eq hsubject
            exact .inr (by simpa [touches, hc, hsubject] using htouches)
      · rw [if_neg hhit]

/-! ### Calls in order -/

@[simp] theorem cell?_calls (hs : Handles) (cs : List HandleCall) (k : Nat) :
    (hs.calls cs).2.cell? k = hs.cell? k := by
  induction cs generalizing hs with
  | nil => rfl
  | cons c cs ih =>
      change ((hs.call c).2.calls cs).2.cell? k = hs.cell? k
      rw [ih, cell?_call]

theorem touches_call (hs : Handles) (c : HandleCall) : (hs.call c).2.touches = hs.touches := by
  funext cell key d
  simp only [touches, cell?_call]

/-- An entry hangs on the calls that touch it. -/
theorem contents_calls (hs : Handles) (cs : List HandleCall) (cell : Nat) (key : String) :
    (hs.calls cs).2.contents cell key = (cs.filter (hs.touches cell key)).foldl
      (fun found c => (c.request.effect c.id found).2) (hs.contents cell key) := by
  induction cs generalizing hs with
  | nil => rfl
  | cons c cs ih =>
      change ((hs.call c).2.calls cs).2.contents cell key = _
      rw [ih, touches_call, contents_call]
      by_cases htouches : hs.touches cell key c = true
      · rw [if_pos htouches, List.filter_cons_of_pos htouches, List.foldl_cons]
      · rw [if_neg htouches, List.filter_cons_of_neg htouches]

theorem getElem?_calls (hs : Handles) {cs : List HandleCall} {i : Nat} (hc : cs[i]? = some c) :
    (hs.calls cs).1[i]? = some ((hs.calls (cs.take i)).2.call c).1 := by
  induction cs generalizing hs i with
  | nil => cases hc
  | cons d cs ih =>
      cases i with
      | zero =>
          obtain rfl := Option.some.inj hc
          rfl
      | succ i => exact ih (hs.call d).2 hc

/-! ### Calls in another order -/

theorem Conflicting.of_touches {d : HandleCall} (hc : hs.touches cell key c = true)
    (hd : hs.cell? d.handle = some cell) (hkey : d.subject? = some key) :
    hs.Conflicting c d ∧ hs.Conflicting d c := by
  obtain ⟨hcell, hkey', hlooks⟩ := touches_eq_true_iff.mp hc
  have hc' := (cell?_eq_some_iff.mp hcell).1
  have hd' := (cell?_eq_some_iff.mp hd).1
  have hnot : c.looks ≠ true := ne_true_of_eq_false hlooks
  exact ⟨⟨⟨cell, hc', hd'⟩, ⟨key, hkey', hkey⟩, fun h => hnot h.1⟩,
    ⟨⟨cell, hd', hc'⟩, ⟨key, hkey, hkey'⟩, fun h => hnot h.2⟩⟩

variable {cs : List HandleCall} {σ : Equiv.Perm (Fin cs.length)}

theorem contents_calls_reorder (hkeep : hs.KeepsOrder cs σ) {m m' : Nat}
    (hbound : ∀ k : Fin cs.length, hs.touches cell key (cs.get k) → (k.val < m ↔ (σ k).val < m')) :
    (hs.calls ((reorder cs σ).take m')).2.contents cell key =
      (hs.calls (cs.take m)).2.contents cell key := by
  rw [contents_calls, contents_calls, filter_take_reorder _ ?_ hbound]
  intro j k hjk hj hk
  obtain ⟨hcell, hkey, -⟩ := touches_eq_true_iff.mp hk
  exact hkeep j k hjk (Conflicting.of_touches hj hcell hkey).1

/-- Before a call and before its new place stand the same calls that touch its entry. -/
theorem lt_iff_of_keepsOrder (hkeep : hs.KeepsOrder cs σ) {i k : Fin cs.length}
    (hcell : hs.cell? (cs.get i).handle = some cell) (hkey : (cs.get i).subject? = some key)
    (hk : hs.touches cell key (cs.get k)) : k.val < i.val ↔ (σ k).val < (σ i).val := by
  obtain ⟨hki, hik⟩ := Conflicting.of_touches hk hcell hkey
  constructor
  · exact fun hlt => hkeep k i hlt hki
  · intro hlt
    rcases lt_trichotomy k i with h | rfl | h
    · exact h
    · exact absurd hlt (Nat.lt_irrefl _)
    · exact absurd hlt (Nat.lt_asymm (hkeep i k h hik))

/-- **Calls that do not conflict commute.** If calls are put into another order in which conflicting ones
stay in order, each call is answered as before, and in the end every store has the same pets. Every
call through a handle that leads to a store is answered. -/
theorem calls_reorder (hs : Handles) (cs : List HandleCall) (σ : Equiv.Perm (Fin cs.length))
    (hkeep : hs.KeepsOrder cs σ) :
    (∀ i, ∃ a, (hs.calls cs).1[i.val]? = some a ∧ (hs.calls (reorder cs σ)).1[(σ i).val]? = some a ∧
      a.isSome = (hs.store? (cs.get i).handle).isSome) ∧
    ∀ cell key, (hs.calls (reorder cs σ)).2.contents cell key = (hs.calls cs).2.contents cell key := by
  constructor
  · intro i
    have hbefore := hs.getElem?_calls (i := i.val) (List.getElem?_eq_getElem i.isLt)
    have hafter := hs.getElem?_calls (getElem?_reorder cs σ i)
    have hsame : ((hs.calls ((reorder cs σ).take (σ i).val)).2.call (cs.get i)).1 =
        ((hs.calls (cs.take i.val)).2.call (cs.get i)).1 := by
      refine call_fst_congr (by simp only [cell?_calls]) fun cell key hcell hkey => ?_
      rw [cell?_calls] at hcell
      exact contents_calls_reorder hkeep fun k hk => lt_iff_of_keepsOrder hkeep hcell hkey hk
    refine ⟨_, hbefore, hafter.trans (congrArg some hsame), ?_⟩
    rw [call_fst, Option.isSome_map, cell?_calls, isSome_cell?]
    rfl
  · intro cell key
    have hall : (hs.calls ((reorder cs σ).take cs.length)).2.contents cell key =
        (hs.calls (cs.take cs.length)).2.contents cell key :=
      contents_calls_reorder hkeep fun k _ => iff_of_true k.isLt (σ k).isLt
    rwa [List.take_length, List.take_of_length_le (Nat.le_of_eq (length_reorder cs σ))] at hall

/-- A handle, a clone of it and a handle of another store. -/
def threeHandles : Handles := ⟨[{}, {}], [0, 0, 1], 0⟩

/-- A put with a name, a put without one, a get through the clone of what was put, and a delete of the
same id in the other store. -/
def fourCalls : List HandleCall :=
  [⟨0, "a", .put ⟨1, "Tom"⟩⟩, ⟨1, "a", .put ⟨1, " "⟩⟩, ⟨1, "", .get ⟨"a"⟩⟩, ⟨2, "", .delete ⟨"a"⟩⟩]

/-- The put without a name and the delete change places. -/
def swappedCalls : Equiv.Perm (Fin fourCalls.length) := Equiv.swap ⟨1, by decide⟩ ⟨3, by decide⟩

/-- The get finds the pet as before. -/
theorem calls_reorder_fourCalls :
    threeHandles.KeepsOrder fourCalls swappedCalls ∧
      (threeHandles.calls (reorder fourCalls swappedCalls)).1[2]? =
        some (some (.response (.get ⟨some ⟨1, "a", "Tom"⟩⟩))) := by
  have hkeep : threeHandles.KeepsOrder fourCalls swappedCalls := by decide
  obtain ⟨a, hfirst, hsecond, -⟩ :=
    (threeHandles.calls_reorder fourCalls swappedCalls hkeep).1 ⟨2, by decide⟩
  refine ⟨hkeep, hsecond.trans ?_⟩
  rw [← hfirst]
  rfl

end Handles

end Menagerie
