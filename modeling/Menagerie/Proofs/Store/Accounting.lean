import Menagerie.Proofs.Store.History

/-! What holds of the stores after every step. Pets stand under their own ids and have names that show,
stores that share nothing have no id in common, and the size of a store is the number of its granted
puts less that of its granted deletes. A granted put or delete moves one entry of one store; nothing
else moves any. -/

namespace Menagerie

namespace History

variable {events : History} {among among' : Nat → Prop} [DecidablePred among] [DecidablePred among']

theorem puts_concat (e : HandleEvent) :
    History.puts (events ++ [e]) among =
      events.puts among + if e.put?.any (fun x => among x.1) then 1 else 0 := by
  rw [puts, List.countP_append, List.countP_singleton, puts]

theorem deletes_concat (e : HandleEvent) :
    History.deletes (events ++ [e]) among =
      events.deletes among + if e.delete?.any (fun x => among x.1) then 1 else 0 := by
  rw [deletes, List.countP_append, List.countP_singleton, deletes]

theorem puts_congr (h : ∀ e ∈ events, ∀ k, e.Through k → (among k ↔ among' k)) :
    events.puts among = events.puts among' := by
  refine List.countP_congr fun e he => ?_
  cases hput : e.put? with
  | none => rfl
  | some x => simp [h e he x.1 (.inl ⟨x.2, hput⟩)]

theorem deletes_congr (h : ∀ e ∈ events, ∀ k, e.Through k → (among k ↔ among' k)) :
    events.deletes among = events.deletes among' := by
  refine List.countP_congr fun e he => ?_
  cases hdelete : e.delete? with
  | none => rfl
  | some x => simp [h e he x.1 (.inr ⟨x.2, hdelete⟩)]

end History

namespace Handles

variable {ids : Nat → String} {events : History} {hs after : Handles} {st : HandleStep} {a : HandleAnswer}

/-- An id is in one store at most. -/
theorem Run.cell_unique (hrun : Run ids events hs) (hids : Set.InjOn ids (Set.Iio hs.drawn))
    {c d : Nat} {id : String} (hc : (hs.contents c id).isSome) (hd : (hs.contents d id).isSome) :
    c = d := by
  induction hrun generalizing c d id with
  | start =>
      rw [contents_single] at hc
      cases hc
  | @step events hs after _ _ run next ih =>
      have hout := step_eq_some_iff.mp next
      have ih := @ih (injOn_of_le hids hout.drawn_le)
      cases hout.change with
      | put _ _ _ hid _ hdrawn hcontents =>
          have hfresh := fun c => run.contents_fresh hids (by omega) c
          rw [hcontents] at hc hd
          split at hc <;> split at hd
          · next hc' hd' => exact hc'.1.trans hd'.1.symm
          · next hc' _ =>
              rw [hc'.2, hid, hfresh] at hd
              cases hd
          · next _ hd' =>
              rw [hd'.2, hid, hfresh] at hc
              cases hc
          · exact ih hc hd
      | delete _ _ _ _ hcontents =>
          rw [hcontents] at hc hd
          split at hc
          · cases hc
          · split at hd
            · cases hd
            · exact ih hc hd
      | keep _ _ hcontents =>
          rw [hcontents] at hc hd
          exact ih hc hd

/-- The size of a store is the number of granted puts through its handles, less the number of granted
deletes. -/
theorem Run.population_add_deletes (hrun : Run ids events hs)
    (hids : Set.InjOn ids (Set.Iio hs.drawn)) (cell : Nat) :
    hs.population cell + events.deletes (fun k => hs.handles[k]? = some cell) =
      events.puts (fun k => hs.handles[k]? = some cell) := by
  induction hrun with
  | start => cases cell <;> rfl
  | @step events hs after _ _ run next ih =>
      have hout := step_eq_some_iff.mp next
      have hshare : ∀ e ∈ events, ∀ k, e.Through k →
          (after.handles[k]? = some cell ↔ hs.handles[k]? = some cell) := by
        intro e he k hk
        rw [hout.getElem?_of_lt (run.recorded.through e he k hk)]
      have ih := ih (injOn_of_le hids hout.drawn_le)
      rw [History.puts_concat, History.deletes_concat, History.puts_congr hshare,
        History.deletes_congr hshare]
      cases hout.change with
      | @put k₀ cell₀ p₀ hput hdelete hk hid _ hdrawn _ hpopulation =>
          have hpop := hpopulation cell
          rw [hid, run.contents_fresh hids (by omega)] at hpop
          rw [hput, hdelete]
          simp only [Option.any_some, Option.any_none, hout.getElem?_of_some hk, Option.some.injEq,
            decide_eq_true_eq, Bool.false_eq_true, if_false, Option.toList_none, List.length_nil,
            ite_self, eq_comm (a := cell₀)] at hpop ⊢
          omega
      | @delete k₀ cell₀ id₀ hput hdelete hk _ _ hpopulation =>
          have hpop := hpopulation cell
          rw [hput, hdelete]
          simp only [Option.any_some, Option.any_none, hout.getElem?_of_some hk, Option.some.injEq,
            decide_eq_true_eq, Bool.false_eq_true, if_false, eq_comm (a := cell₀)] at hpop ⊢
          omega
      | keep hput hdelete _ hpopulation =>
          rw [hput, hdelete, hpopulation]
          simp only [Option.any_none, Bool.false_eq_true, if_false]
          omega

/-! ### What one step changes -/

theorem Outcome.stores_of_refused {f : Refusal} (h : Outcome ids hs st (.refused f) after) :
    after.stores = hs.stores := by
  generalize hanswer : HandleAnswer.refused f = answer at h
  cases h with
  | create => cases hanswer
  | clone _ => rfl
  | size _ _ => rfl
  | isEmpty _ _ => rfl
  | request r hk hcell =>
      exact served_stores hcell (Store.answer_of_error (HandleAnswer.ofReply_eq_refused.mp hanswer.symm))

theorem Outcome.stores_of_get {k : Nat} {r : GetPetRequest}
    (h : Outcome ids hs (.request k (.get r)) a after) : after.stores = hs.stores := by
  cases h with
  | @request _ cell s _ _ hcell => exact served_stores hcell (s.answer_get_snd _ r)

/-- A granted put or delete moves the entry of its subject, and no other. -/
theorem Run.changes_one (hrun : Run ids events hs) {k : Nat} {r : PetRequest} {reply : PetResponse}
    (hout : Outcome ids hs (.request k r) (.response reply) after)
    (hids : Set.InjOn ids (Set.Iio after.drawn)) (hget : ∀ g, r ≠ .get g) :
    ∃ cell, hs.handles[k]? = some cell ∧ ∀ c id, after.contents c id ≠ hs.contents c id ↔
      c = cell ∧ id = r.subject (ids hs.drawn) := by
  generalize hanswer : HandleAnswer.response reply = answer at hout
  cases hout with
  | @request _ cell s _ hk hcell =>
      have hreply : (r.effect (ids hs.drawn) (hs.contents cell (r.subject (ids hs.drawn)))).1 =
          .ok reply := by
        rw [contents_eq hcell, ← Store.answer_fst]
        exact HandleAnswer.ofReply_eq_response.mp hanswer.symm
      have hfresh : ∀ q, r = .put q → hs.contents cell (r.subject (ids hs.drawn)) = none := by
        rintro q rfl
        refine hrun.contents_fresh hids ?_ cell
        simp [served, PetRequest.drawsId, PetRequest.isNamed_of_effect hreply]
      refine ⟨cell, hk, fun c id => ?_⟩
      rw [contents_served r hcell]
      by_cases hhit : c = cell ∧ id = r.subject (ids hs.drawn)
      · obtain ⟨rfl, rfl⟩ := hhit
        rw [if_pos ⟨rfl, rfl⟩]
        exact iff_of_true (PetRequest.effect_snd_ne hreply hget hfresh) ⟨rfl, rfl⟩
      · rw [if_neg hhit]
        exact iff_of_false (fun h => h rfl) hhit

open Classical in
/-- What holds of the stores after every step. -/
structure Accounted (ids : Nat → String) (events : History) (hs : Handles) : Prop where
  /-- Every pet stands under its own id, and its name shows. -/
  sound : ∀ s ∈ hs.stores, ∀ id p, s.get? id = some p →
    p.id = id ∧ ∃ c ∈ p.name.toList, Text.isBlank c = false
  /-- Stores of handles that no clones relate have no id in common. -/
  disjoint : ∀ h k s t, hs.store? h = some s → hs.store? k = some t → ¬events.Related h k →
    ∀ id, s.get? id = none ∨ t.get? id = none
  /-- Through every handle of a store one learns how many puts were granted less the deletes. -/
  sizes : ∀ h < hs.handles.length, ∃ n,
    n + events.deletes (events.Related h) = events.puts (events.Related h) ∧
    ∀ k, events.Related h k → hs.step ids (.size k) = some (.size n, hs) ∧
      hs.step ids (.isEmpty k) = some (.isEmpty (decide (n = 0)), hs)

theorem Run.accounted (hrun : Run ids events hs) (hids : Set.InjOn ids (Set.Iio hs.drawn)) :
    Accounted ids events hs where
  sound s hs' id p hp := by
    obtain ⟨cell, hcell⟩ := List.mem_iff_getElem?.mp hs'
    have hsound := hrun.sound ((contents_eq hcell id).trans hp)
    exact ⟨hsound.id_eq, hsound.named⟩
  disjoint h k s t hstore hstore' hrelated id := by
    obtain ⟨c, hh, hc⟩ := store?_eq_some_iff.mp hstore
    obtain ⟨d, hk, hd⟩ := store?_eq_some_iff.mp hstore'
    by_contra hboth
    rw [not_or, ← ne_eq, ← ne_eq, Option.ne_none_iff_isSome, Option.ne_none_iff_isSome,
      ← contents_eq hc, ← contents_eq hd] at hboth
    obtain rfl := hrun.cell_unique hids hboth.1 hboth.2
    exact hrelated (hrun.recorded.related h k c hh hk)
  sizes h hh := by
    classical
    have hh := List.getElem?_eq_getElem hh
    have hshare : ∀ e ∈ events, ∀ k, e.Through k →
        (events.Related h k ↔ hs.handles[k]? = some hs.handles[h]) :=
      fun _ _ _ _ => hrun.recorded.related_iff hh
    have hcell := List.getElem?_eq_getElem (hrun.recorded.cell_lt _ _ hh)
    refine ⟨hs.population hs.handles[h], ?_, fun k hk => ?_⟩
    · rw [History.deletes_congr hshare, History.puts_congr hshare]
      exact hrun.population_add_deletes hids _
    · have hk := hrun.recorded.related_iff hh |>.mp hk
      rw [population_eq hcell, ← Store.isEmpty_eq]
      exact ⟨step_eq_some_iff.mpr (.size hk hcell), step_eq_some_iff.mpr (.isEmpty hk hcell)⟩

/-- **Every step keeps the account.** After any run that draws no id twice the stores are accounted for.
A next step that is refused, and one that only looks, leaves all stores as they are; a put or a delete
that is granted changes one entry of one store. -/
theorem Run.every_step_accounted (hrun : Run ids events hs) (hids : Set.InjOn ids (Set.Iio hs.drawn)) :
    Accounted ids events hs ∧
    ∀ st a after, hs.step ids st = some (a, after) →
      (∀ f, a = .refused f → after.stores = hs.stores) ∧
      (∀ k, (∃ r, st = .request k (.get r)) ∨ st = .size k ∨ st = .isEmpty k →
        after.stores = hs.stores) ∧
      (∀ k r reply, st = .request k r → (∀ g, r ≠ .get g) → a = .response reply →
        Set.InjOn ids (Set.Iio after.drawn) →
        ∃ cell key, hs.handles[k]? = some cell ∧
          ∀ c id, after.contents c id ≠ hs.contents c id ↔ c = cell ∧ id = key) := by
  refine ⟨hrun.accounted hids, fun st a after hstep => ?_⟩
  have hout := step_eq_some_iff.mp hstep
  refine ⟨?_, ?_, ?_⟩
  · rintro f rfl
    exact hout.stores_of_refused
  · rintro k (⟨r, rfl⟩ | rfl | rfl)
    · exact hout.stores_of_get
    · cases hout
      rfl
    · cases hout
      rfl
  · rintro k r reply rfl hget rfl hafter
    obtain ⟨cell, hk, hchange⟩ := hrun.changes_one hout hafter hget
    exact ⟨cell, _, hk, hchange⟩

/-- Both pets of a store are counted through either of its handles. A put with a blank name and a get leave
the store as it is, and a delete changes one entry. -/
theorem Run.every_step_accounted_clone :
    ∃ hs, Run (["a", "b"].getD · "") sharedHistory hs ∧
      Set.InjOn (["a", "b"].getD · "") (Set.Iio hs.drawn) ∧
      hs.step (["a", "b"].getD · "") (.size 0) = some (.size 2, hs) ∧
      hs.step (["a", "b"].getD · "") (.size 1) = some (.size 2, hs) ∧
      (∃ after, hs.step (["a", "b"].getD · "") (.request 0 (.put ⟨1, " "⟩)) =
          some (.refused .blankName, after) ∧
        after.stores = hs.stores) ∧
      (∃ after, hs.step (["a", "b"].getD · "") (.request 0 (.get ⟨"b"⟩)) =
          some (.response (.get ⟨some ⟨-7, "b", " Rex"⟩⟩), after) ∧
        after.stores = hs.stores) ∧
      ∃ after cell key, hs.step (["a", "b"].getD · "") (.request 1 (.delete ⟨"a"⟩)) =
          some (.response (.delete {}), after) ∧
        Set.InjOn (["a", "b"].getD · "") (Set.Iio after.drawn) ∧ hs.handles[1]? = some cell ∧
        ∀ c id, after.contents c id ≠ hs.contents c id ↔ c = cell ∧ id = key := by
  classical
  have hlength : 0 < sharedHandles.handles.length := by decide
  obtain ⟨haccounted, hsteps⟩ := run_sharedHistory.every_step_accounted injOn_sharedHandles
  obtain ⟨n, hn, hsize⟩ := haccounted.sizes 0 hlength
  have hputs : ∀ (among : Nat → Prop) [DecidablePred among], among 0 → among 1 →
      sharedHistory.puts among = 2 := by
    intro among _ hzero hone
    simp [History.puts, sharedHistory, HandleEvent.put?, hzero, hone]
  have hdeletes : sharedHistory.deletes (sharedHistory.Related 0) = 0 := rfl
  rw [hputs _ (.refl 0) related_sharedHistory, hdeletes] at hn
  obtain rfl : n = 2 := by omega
  have hput : sharedHandles.step (["a", "b"].getD · "") (.request 0 (.put ⟨1, " "⟩)) =
      some (.refused .blankName, sharedHandles) := rfl
  have hget : sharedHandles.step (["a", "b"].getD · "") (.request 0 (.get ⟨"b"⟩)) =
      some (.response (.get ⟨some ⟨-7, "b", " Rex"⟩⟩), sharedHandles) := rfl
  have hdelete : sharedHandles.step (["a", "b"].getD · "") (.request 1 (.delete ⟨"a"⟩)) =
      some (.response (.delete {}),
        { sharedHandles with stores := sharedHandles.stores.map (·.erase "a") }) := rfl
  obtain ⟨hrefused, -, -⟩ := hsteps _ _ _ hput
  obtain ⟨-, hlooked, -⟩ := hsteps _ _ _ hget
  obtain ⟨-, -, hgranted⟩ := hsteps _ _ _ hdelete
  obtain ⟨cell, key, hcell, hchange⟩ := hgranted 1 _ _ rfl nofun rfl injOn_sharedHandles
  exact ⟨sharedHandles, run_sharedHistory, injOn_sharedHandles, (hsize 0 (.refl 0)).1,
    (hsize 1 related_sharedHistory).1, ⟨_, hput, hrefused _ rfl⟩, ⟨_, hget, hlooked 0 (.inl ⟨_, rfl⟩)⟩,
    _, cell, key, hdelete, injOn_sharedHandles, hcell, hchange⟩

end Handles

end Menagerie
