import Menagerie.Proofs.Store.Locality
import Menagerie.Store.History

/-! What one step over the handles can do. Its event alone tells how the stores change: a granted put
enters the pet under its id, a granted delete takes the entry of its id away, and any other event
leaves every entry where it was. Handles that exist keep the stores that they lead to. -/

namespace Menagerie

/-- The answer of a step to a request. -/
def HandleAnswer.ofReply : Except Refusal PetResponse → HandleAnswer
  | .ok reply => .response reply
  | .error f => .refused f

namespace HandleAnswer

@[simp] theorem ofReply_eq_response {x : Except Refusal PetResponse} {reply : PetResponse} :
    ofReply x = .response reply ↔ x = .ok reply := by
  cases x <;> simp [ofReply]

@[simp] theorem ofReply_eq_refused {x : Except Refusal PetResponse} {f : Refusal} :
    ofReply x = .refused f ↔ x = .error f := by
  cases x <;> simp [ofReply]

end HandleAnswer

namespace Handles

/-- The handles after a store has answered a request. -/
def served (ids : Nat → String) (hs : Handles) (cell : Nat) (s : Store) (r : PetRequest) : Handles :=
  { hs with
    stores := hs.stores.set cell (s.answer (ids hs.drawn) r).2
    drawn := if r.drawsId then hs.drawn + 1 else hs.drawn }

/-- Every way in which a step gives an answer. -/
inductive Outcome (ids : Nat → String) (hs : Handles) : HandleStep → HandleAnswer → Handles → Prop
  | create : Outcome ids hs .create (.handle hs.handles.length)
      { hs with stores := hs.stores ++ [{}], handles := hs.handles ++ [hs.stores.length] }
  | clone {k cell : Nat} (hk : hs.handles[k]? = some cell) :
      Outcome ids hs (.clone k) (.handle hs.handles.length) { hs with handles := hs.handles ++ [cell] }
  | size {k cell : Nat} {s : Store} (hk : hs.handles[k]? = some cell) (hs' : hs.stores[cell]? = some s) :
      Outcome ids hs (.size k) (.size s.size) hs
  | isEmpty {k cell : Nat} {s : Store} (hk : hs.handles[k]? = some cell)
      (hs' : hs.stores[cell]? = some s) : Outcome ids hs (.isEmpty k) (.isEmpty s.isEmpty) hs
  | request {k cell : Nat} {s : Store} (r : PetRequest) (hk : hs.handles[k]? = some cell)
      (hs' : hs.stores[cell]? = some s) :
      Outcome ids hs (.request k r) (.ofReply (s.answer (ids hs.drawn) r).1) (hs.served ids cell s r)

variable {ids : Nat → String} {hs after : Handles} {st : HandleStep} {a : HandleAnswer}

theorem store?_eq {k cell : Nat} (hk : hs.handles[k]? = some cell) : hs.store? k = hs.stores[cell]? := by
  rw [store?, hk, Option.bind_some]

theorem store?_eq_some_iff {k : Nat} {s : Store} :
    hs.store? k = some s ↔ ∃ cell, hs.handles[k]? = some cell ∧ hs.stores[cell]? = some s :=
  Option.bind_eq_some_iff

theorem step_request {k cell : Nat} {s : Store} (r : PetRequest) (hk : hs.handles[k]? = some cell)
    (hstore : hs.stores[cell]? = some s) :
    hs.step ids (.request k r) =
      some (.ofReply (s.answer (ids hs.drawn) r).1, hs.served ids cell s r) := by
  simp only [step, hk, hstore, Option.map_some, served]
  cases (s.answer (ids hs.drawn) r).1 <;> rfl

theorem step_eq_some_iff : hs.step ids st = some (a, after) ↔ Outcome ids hs st a after := by
  constructor
  · intro h
    cases st with
    | create =>
        cases h
        exact .create
    | clone k =>
        obtain ⟨cell, hk, heq⟩ := Option.map_eq_some_iff.mp h
        cases heq
        exact .clone hk
    | size k =>
        obtain ⟨s, hstore, heq⟩ := Option.map_eq_some_iff.mp h
        obtain ⟨cell, hk, hcell⟩ := store?_eq_some_iff.mp hstore
        cases heq
        exact .size hk hcell
    | isEmpty k =>
        obtain ⟨s, hstore, heq⟩ := Option.map_eq_some_iff.mp h
        obtain ⟨cell, hk, hcell⟩ := store?_eq_some_iff.mp hstore
        cases heq
        exact .isEmpty hk hcell
    | request k r =>
        cases hk : hs.handles[k]? with
        | none => simp [step, hk] at h
        | some cell =>
            cases hcell : hs.stores[cell]? with
            | none => simp [step, hk, hcell] at h
            | some s =>
                rw [step_request r hk hcell] at h
                cases h
                exact .request r hk hcell
  · intro h
    cases h with
    | create => rfl
    | clone hk => simp [step, hk]
    | size hk hcell => simp [step, store?_eq hk, hcell]
    | isEmpty hk hcell => simp [step, store?_eq hk, hcell]
    | request r hk hcell => exact step_request r hk hcell

/-! ### Handles and drawn ids only grow -/

theorem Outcome.handles_prefix (h : Outcome ids hs st a after) : hs.handles <+: after.handles := by
  cases h with
  | create => exact List.prefix_append _ _
  | clone _ => exact List.prefix_append _ _
  | size _ _ => exact List.prefix_rfl
  | isEmpty _ _ => exact List.prefix_rfl
  | request _ _ _ => exact List.prefix_rfl

theorem Outcome.drawn_le (h : Outcome ids hs st a after) : hs.drawn ≤ after.drawn := by
  cases h with
  | request r _ _ =>
      simp only [served]
      split <;> omega
  | _ => exact Nat.le_refl _

/-! ### Entries -/

theorem contents_eq {cell : Nat} {s : Store} (hcell : hs.stores[cell]? = some s) (key : String) :
    hs.contents cell key = s.get? key := by
  rw [contents, hcell, Option.elim_some]

theorem population_eq {cell : Nat} {s : Store} (hcell : hs.stores[cell]? = some s) :
    hs.population cell = s.size := by
  rw [population, hcell, Option.elim_some]

theorem contents_served {cell : Nat} {s : Store} (r : PetRequest) (hcell : hs.stores[cell]? = some s)
    (c : Nat) (key : String) :
    (hs.served ids cell s r).contents c key =
      if c = cell ∧ key = r.subject (ids hs.drawn) then
        (r.effect (ids hs.drawn) (hs.contents cell key)).2
      else hs.contents c key := by
  have hlt : cell < hs.stores.length := (List.getElem?_eq_some_iff.mp hcell).1
  by_cases hc : c = cell
  · subst hc
    simp only [contents, served, List.getElem?_set_self hlt, Option.elim_some, Store.get?_answer,
      hcell, true_and]
  · rw [if_neg (fun h => hc h.1)]
    simp only [contents, served, List.getElem?_set_ne (Ne.symm hc)]

theorem population_served {cell : Nat} {s : Store} (r : PetRequest) (hcell : hs.stores[cell]? = some s)
    (c : Nat) :
    (hs.served ids cell s r).population c =
      if c = cell then (s.answer (ids hs.drawn) r).2.size else hs.population c := by
  have hlt : cell < hs.stores.length := (List.getElem?_eq_some_iff.mp hcell).1
  by_cases hc : c = cell
  · subst hc
    simp only [population, served, List.getElem?_set_self hlt, if_true, Option.elim_some]
  · rw [if_neg hc]
    simp only [population, served, List.getElem?_set_ne (Ne.symm hc)]

theorem served_stores {cell : Nat} {s : Store} {r : PetRequest} (hcell : hs.stores[cell]? = some s)
    (h : (s.answer (ids hs.drawn) r).2 = s) : (hs.served ids cell s r).stores = hs.stores := by
  obtain ⟨hlt, rfl⟩ := List.getElem?_eq_some_iff.mp hcell
  rw [served, h]
  exact List.set_getElem_self hlt

/-- What a step does to the entries, as its event tells. -/
inductive Change (ids : Nat → String) (hs after : Handles) (e : HandleEvent) : Prop
  | put {k cell : Nat} {p : Pet} (hput : e.put? = some (k, p)) (hdelete : e.delete? = none)
      (hk : hs.handles[k]? = some cell) (hid : p.id = ids hs.drawn)
      (hnamed : ∃ c ∈ p.name.toList, Text.isBlank c = false) (hdrawn : after.drawn = hs.drawn + 1)
      (hcontents : ∀ c key, after.contents c key =
        if c = cell ∧ key = p.id then some p else hs.contents c key)
      (hpopulation : ∀ c, after.population c +
          (if c = cell then (hs.contents cell p.id).toList.length else 0) =
        hs.population c + if c = cell then 1 else 0)
  | delete {k cell : Nat} {id : String} (hput : e.put? = none) (hdelete : e.delete? = some (k, id))
      (hk : hs.handles[k]? = some cell) (hfound : (hs.contents cell id).isSome)
      (hcontents : ∀ c key, after.contents c key =
        if c = cell ∧ key = id then none else hs.contents c key)
      (hpopulation : ∀ c, after.population c + (if c = cell then 1 else 0) = hs.population c)
  | keep (hput : e.put? = none) (hdelete : e.delete? = none)
      (hcontents : ∀ c key, after.contents c key = hs.contents c key)
      (hpopulation : ∀ c, after.population c = hs.population c)

/-- An empty store at the end looks like no store at all. -/
theorem elim_concat_empty {β : Type} (stores : List Store) (c : Nat) (d : β) (f : Store → β)
    (hf : f {} = d) : ((stores ++ [({} : Store)])[c]?).elim d f = (stores[c]?).elim d f := by
  rcases Nat.lt_trichotomy c stores.length with hc | hc | hc
  · rw [List.getElem?_append_left hc]
  · rw [hc, List.getElem?_concat_length, List.getElem?_eq_none (Nat.le_refl _), Option.elim_some, hf,
      Option.elim_none]
  · rw [List.getElem?_eq_none (by simp; omega), List.getElem?_eq_none (by omega)]

/-- A step that leaves the stores alone, or adds an empty one, changes no entry. -/
theorem Change.of_stores {e : HandleEvent} (hput : e.put? = none) (hdelete : e.delete? = none)
    (hstores : after.stores = hs.stores ∨ after.stores = hs.stores ++ [({} : Store)]) :
    Change ids hs after e := by
  refine .keep hput hdelete (fun c key => ?_) (fun c => ?_)
  · rcases hstores with hstores | hstores
    · rw [contents, contents, hstores]
    · rw [contents, contents, hstores]
      exact elim_concat_empty _ _ _ _ (Store.get?_empty key)
  · rcases hstores with hstores | hstores
    · rw [population, population, hstores]
    · rw [population, population, hstores]
      exact elim_concat_empty _ _ _ _ rfl

theorem Change.of_put {k cell : Nat} {s : Store} {r : PutPetRequest} (hk : hs.handles[k]? = some cell)
    (hcell : hs.stores[cell]? = some s) (hnamed : r.isNamed = true) :
    Change ids hs (hs.served ids cell s (.put r))
      ⟨.request k (.put r), .response (.put ⟨some (r.pet (ids hs.drawn))⟩)⟩ := by
  refine .put rfl rfl hk rfl (r.isNamed_iff.mp hnamed) ?_ (fun c key => ?_) (fun c => ?_)
  · exact if_pos hnamed
  · rw [contents_served _ hcell]
    simp only [PetRequest.effect, if_pos hnamed]
    rfl
  · rw [population_served _ hcell, contents_eq hcell]
    by_cases hc : c = cell
    · subst hc
      rw [if_pos rfl, if_pos rfl, if_pos rfl, population_eq hcell]
      simp only [Store.answer, if_pos hnamed]
      exact s.size_insert _ _
    · simp only [if_neg hc]

theorem Change.of_delete {k cell : Nat} {s : Store} {r : DeletePetRequest} {p : Pet}
    (hk : hs.handles[k]? = some cell) (hcell : hs.stores[cell]? = some s) (hfound : s.get? r.id = some p) :
    Change ids hs (hs.served ids cell s (.delete r)) ⟨.request k (.delete r), .response (.delete {})⟩ := by
  refine .delete rfl rfl hk ?_ (fun c key => ?_) (fun c => ?_)
  · rw [contents_eq hcell, hfound, Option.isSome_some]
  · rw [contents_served _ hcell]
    rfl
  · rw [population_served _ hcell]
    by_cases hc : c = cell
    · subst hc
      rw [if_pos rfl, if_pos rfl, population_eq hcell, ← s.size_erase r.id, hfound]
      simp only [Store.answer, hfound]
      rfl
    · simp only [if_neg hc, Nat.add_zero]

theorem Outcome.change (h : Outcome ids hs st a after) : Change ids hs after ⟨st, a⟩ := by
  cases h with
  | create => exact .of_stores rfl rfl (.inr rfl)
  | clone _ => exact .of_stores rfl rfl (.inl rfl)
  | size _ _ => exact .of_stores rfl rfl (.inl rfl)
  | isEmpty _ _ => exact .of_stores rfl rfl (.inl rfl)
  | @request k cell s r hk hcell =>
      generalize hreply : s.answer (ids hs.drawn) r = x
      obtain ⟨reply, rest⟩ := x
      cases Store.Answered.of_eq hreply with
      | found _ => exact .of_stores rfl rfl (.inl (served_stores hcell (congrArg Prod.snd hreply)))
      | entered hnamed => exact .of_put hk hcell hnamed
      | removed hfound => exact .of_delete hk hcell hfound
      | refused =>
          have hstores := served_stores hcell (congrArg Prod.snd hreply)
          cases r <;> exact .of_stores rfl rfl (.inl hstores)

end Handles

end Menagerie
