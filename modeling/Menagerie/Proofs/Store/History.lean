import Mathlib.Data.Set.Function
import Mathlib.Order.Interval.Set.Defs
import Menagerie.Proofs.Store.Sharing
import Menagerie.Rpc.Failure

/-! A store is no more than its history. It has a pet under an id exactly if the pet was put through a
handle of the store and its id not deleted through one since. So every answer is told by the answers
before it, as long as no id is drawn twice. -/

namespace Menagerie

namespace History

theorem keeps_concat {events : History} {among : Nat → Prop} {id : String} {p : Pet} (e : HandleEvent) :
    History.Keeps (events ++ [e]) among id p ↔
      (p.id = id ∧ ∃ k, among k ∧ e.put? = some (k, p)) ∨
      (events.Keeps among id p ∧ ∀ k, among k → e.delete? ≠ some (k, id)) := by
  constructor
  · rintro ⟨hid, earlier, x, later, heq, hput, hlater⟩
    rcases List.eq_nil_or_concat later with rfl | ⟨later, y, rfl⟩
    · obtain ⟨-, rfl⟩ := List.concat_inj.mp (by simpa using heq)
      exact .inl ⟨hid, hput⟩
    · rw [List.concat_eq_append, ← List.cons_append, ← List.append_assoc] at heq
      obtain ⟨rfl, hlast⟩ := List.append_inj' heq rfl
      obtain rfl := List.singleton_inj.mp hlast
      rw [List.concat_eq_append] at hlater
      exact .inr ⟨⟨hid, earlier, x, later, rfl, hput,
        fun d hd => hlater d (List.mem_append_left _ hd)⟩, hlater e (by simp)⟩
  · rintro (⟨hid, hput⟩ | ⟨⟨hid, earlier, x, later, rfl, hput, hlater⟩, he⟩)
    · exact ⟨hid, events, e, [], rfl, hput, fun d hd => absurd hd List.not_mem_nil⟩
    · refine ⟨hid, earlier, x, later ++ [e], by simp, hput, fun d hd => ?_⟩
      rcases List.mem_append.mp hd with hd | hd
      · exact hlater d hd
      · obtain rfl := List.mem_singleton.mp hd
        exact he

theorem keeps_concat_put {events : History} {among : Nat → Prop} {id : String} {p q : Pet}
    {e : HandleEvent} {k : Nat} (hput : e.put? = some (k, q)) (hdelete : e.delete? = none) :
    History.Keeps (events ++ [e]) among id p ↔
      (among k ∧ q.id = id ∧ q = p) ∨ events.Keeps among id p := by
  rw [keeps_concat, hput, hdelete]
  constructor
  · rintro (⟨hid, j, hj, heq⟩ | ⟨h, -⟩)
    · obtain ⟨rfl, rfl⟩ := Prod.mk.inj (Option.some.inj heq)
      exact .inl ⟨hj, hid, rfl⟩
    · exact .inr h
  · rintro (⟨hk, hid, rfl⟩ | h)
    · exact .inl ⟨hid, k, hk, rfl⟩
    · exact .inr ⟨h, fun _ _ => nofun⟩

theorem keeps_concat_delete {events : History} {among : Nat → Prop} {id key : String} {p : Pet}
    {e : HandleEvent} {k : Nat} (hput : e.put? = none) (hdelete : e.delete? = some (k, key)) :
    History.Keeps (events ++ [e]) among id p ↔ events.Keeps among id p ∧ ¬(among k ∧ key = id) := by
  rw [keeps_concat, hput, hdelete]
  constructor
  · rintro (⟨-, j, -, heq⟩ | ⟨h, hnone⟩)
    · cases heq
    · exact ⟨h, fun hk => hnone k hk.1 (by rw [hk.2])⟩
  · rintro ⟨h, hnone⟩
    refine .inr ⟨h, fun j hj heq => hnone ?_⟩
    obtain ⟨rfl, rfl⟩ := Prod.mk.inj (Option.some.inj heq)
    exact ⟨hj, rfl⟩

theorem keeps_concat_other {events : History} {among : Nat → Prop} {id : String} {p : Pet}
    {e : HandleEvent} (hput : e.put? = none) (hdelete : e.delete? = none) :
    History.Keeps (events ++ [e]) among id p ↔ events.Keeps among id p := by
  rw [keeps_concat, hput, hdelete]
  constructor
  · rintro (⟨-, j, -, heq⟩ | ⟨h, -⟩)
    · cases heq
    · exact h
  · exact fun h => .inr ⟨h, fun _ _ => nofun⟩

/-- Only the handles that requests were granted through matter. -/
theorem Keeps.congr {events : History} {among among' : Nat → Prop} {id : String} {p : Pet}
    (hkeeps : events.Keeps among id p)
    (h : ∀ e ∈ events, ∀ k, e.Through k → (among k ↔ among' k)) : events.Keeps among' id p := by
  obtain ⟨hid, earlier, e, later, rfl, ⟨k, hk, hput⟩, hlater⟩ := hkeeps
  refine ⟨hid, earlier, e, later, rfl, ⟨k, (h e (by simp) k (.inl ⟨p, hput⟩)).mp hk, hput⟩, ?_⟩
  intro d hd j hj hdelete
  exact hlater d hd j ((h d (by simp [hd]) j (.inr ⟨id, hdelete⟩)).mpr hj) hdelete

theorem keeps_congr {events : History} {among among' : Nat → Prop} {id : String} {p : Pet}
    (h : ∀ e ∈ events, ∀ k, e.Through k → (among k ↔ among' k)) :
    events.Keeps among id p ↔ events.Keeps among' id p :=
  ⟨fun hkeeps => hkeeps.congr h, fun hkeeps => hkeeps.congr fun e he k hk => (h e he k hk).symm⟩

end History

namespace Handles

variable {ids : Nat → String} {events : History} {hs after : Handles} {st : HandleStep} {a : HandleAnswer}

/-! ### Entries and histories -/

/-- What holds of every entry: a pet stands under its own id, which has been drawn, and its name shows. -/
structure Sound (ids : Nat → String) (drawn : Nat) (id : String) (p : Pet) : Prop where
  id_eq : p.id = id
  named : ∃ c ∈ p.name.toList, Text.isBlank c = false
  drawn : ∃ i < drawn, id = ids i

theorem Sound.mono {n m : Nat} {id : String} {p : Pet} (h : Sound ids n id p) (hle : n ≤ m) :
    Sound ids m id p := by
  obtain ⟨i, hi, hid⟩ := h.drawn
  exact ⟨h.id_eq, h.named, i, Nat.lt_of_lt_of_le hi hle, hid⟩

theorem contents_single (cell : Nat) (id : String) : single.contents cell id = none := by
  cases cell <;> rfl

theorem Run.sound (hrun : Run ids events hs) {cell : Nat} {id : String} {p : Pet}
    (h : hs.contents cell id = some p) : Sound ids hs.drawn id p := by
  induction hrun generalizing cell id p with
  | start =>
      rw [contents_single] at h
      cases h
  | step _ next ih =>
      have hout := step_eq_some_iff.mp next
      cases hout.change with
      | put _ _ _ hid hnamed hdrawn hcontents =>
          rw [hcontents] at h
          split at h
          · next hhit =>
              obtain rfl := Option.some.inj h
              exact ⟨hhit.2.symm, hnamed, _, by omega, hhit.2.trans hid⟩
          · exact (ih h).mono hout.drawn_le
      | delete _ _ _ _ hcontents =>
          rw [hcontents] at h
          split at h
          · cases h
          · exact (ih h).mono hout.drawn_le
      | keep _ _ hcontents =>
          rw [hcontents] at h
          exact (ih h).mono hout.drawn_le

theorem injOn_of_le {n m : Nat} (hids : Set.InjOn ids (Set.Iio m)) (hle : n ≤ m) :
    Set.InjOn ids (Set.Iio n) :=
  hids.mono fun _ hi => Nat.lt_of_lt_of_le hi hle

/-- No store has the id that is drawn next. -/
theorem Run.contents_fresh (hrun : Run ids events hs) {n : Nat} (hids : Set.InjOn ids (Set.Iio n))
    (hn : hs.drawn < n) (cell : Nat) : hs.contents cell (ids hs.drawn) = none := by
  cases h : hs.contents cell (ids hs.drawn) with
  | none => rfl
  | some p =>
      obtain ⟨i, hi, hid⟩ := (hrun.sound h).drawn
      have heq : hs.drawn = i := hids hn (Nat.lt_trans hi hn) hid
      omega

/-- A store has a pet exactly if the history keeps it for the handles of the store. -/
theorem Run.contents_eq_some_iff (hrun : Run ids events hs) (hids : Set.InjOn ids (Set.Iio hs.drawn))
    (cell : Nat) (id : String) (p : Pet) :
    hs.contents cell id = some p ↔ events.Keeps (fun k => hs.handles[k]? = some cell) id p := by
  induction hrun generalizing cell id p with
  | start =>
      rw [contents_single]
      constructor
      · intro h
        cases h
      · rintro ⟨-, earlier, e, later, heq, -⟩
        simp at heq
  | @step events hs after st a run next ih =>
      have hout := step_eq_some_iff.mp next
      have hold : events.Keeps (fun k => after.handles[k]? = some cell) id p ↔
          hs.contents cell id = some p := by
        rw [ih (injOn_of_le hids hout.drawn_le)]
        refine History.keeps_congr fun e he k hk => ?_
        rw [hout.getElem?_of_lt (run.recorded.through e he k hk)]
      cases hout.change with
      | @put k₀ cell₀ p₀ hput hdelete hk hid _ hdrawn hcontents =>
          rw [hcontents, History.keeps_concat_put hput hdelete, hold, hout.getElem?_of_some hk]
          by_cases hhit : cell = cell₀ ∧ id = p₀.id
          · obtain ⟨rfl, rfl⟩ := hhit
            rw [if_pos ⟨rfl, rfl⟩, hid, run.contents_fresh hids (by omega)]
            simp
          · rw [if_neg hhit]
            exact ⟨.inr, fun h => h.resolve_left fun h => hhit ⟨(Option.some.inj h.1).symm, h.2.1.symm⟩⟩
      | @delete k₀ cell₀ id₀ hput hdelete hk _ hcontents =>
          rw [hcontents, History.keeps_concat_delete hput hdelete, hold, hout.getElem?_of_some hk]
          by_cases hhit : cell = cell₀ ∧ id = id₀
          · obtain ⟨rfl, rfl⟩ := hhit
            rw [if_pos ⟨rfl, rfl⟩]
            simp
          · rw [if_neg hhit]
            exact ⟨fun h => ⟨h, fun h => hhit ⟨(Option.some.inj h.1).symm, h.2.symm⟩⟩, fun h => h.1⟩
      | keep hput hdelete hcontents =>
          rw [hcontents, History.keeps_concat_other hput hdelete, hold]

/-- A request through a handle is answered from the entry that its subject has in the store. -/
theorem Run.step_request (hrun : Run ids events hs) {k cell : Nat} (hk : hs.handles[k]? = some cell)
    (r : PetRequest) :
    ∃ after, hs.step ids (.request k r) = some (.ofReply
      (r.effect (ids hs.drawn) (hs.contents cell (r.subject (ids hs.drawn)))).1, after) := by
  have hcell := List.getElem?_eq_getElem (hrun.recorded.cell_lt k cell hk)
  rw [Handles.step_request r hk hcell, Store.answer_fst, contents_eq hcell]
  exact ⟨_, rfl⟩

end Handles

/-- The step is refused with a status and a message. -/
def HandleAnswer.RefusedWith (a : HandleAnswer) (code : Rpc.Code) (message : String) : Prop :=
  ∃ f : Refusal, a = .refused f ∧ (Rpc.Failure.refused f).code = code ∧
    (Rpc.Failure.refused f).message = message

theorem HandleAnswer.refusedWith_notFound (id : String) :
    (HandleAnswer.refused (.notFound id)).RefusedWith .notFound ("Pet not found: " ++ id) :=
  ⟨_, rfl, rfl, rfl⟩

namespace Handles

variable {ids : Nat → String} {events : History} {hs : Handles}

/-- **Answers are told by the history.** After any run that draws no id twice, through any handle: a
put of a name that shows is granted with the next id, and any other put is refused; a get answers the
pet that the history keeps under the id for the related handles, and is refused if there is none; a
delete is granted exactly if a get is. -/
theorem Run.answers_from_history (hrun : Run ids events hs) (hids : Set.InjOn ids (Set.Iio hs.drawn))
    {h : Nat} (hh : h < hs.handles.length) :
    (∀ r : PutPetRequest, ∃ a after, hs.step ids (.request h (.put r)) = some (a, after) ∧
      ((∃ c ∈ r.name.toList, Text.isBlank c = false) ∧
          a = .response (.put ⟨some { kind := r.kind, id := ids hs.drawn, name := r.name }⟩) ∨
        (∀ c ∈ r.name.toList, Text.isBlank c = true) ∧
          a.RefusedWith .invalidArgument "Pet name must not be empty")) ∧
    (∀ id, ∃ a after, hs.step ids (.request h (.get ⟨id⟩)) = some (a, after) ∧
      (∀ p, a = .response (.get ⟨some p⟩) ↔ events.Keeps (events.Related h) id p) ∧
      ((∀ p, ¬events.Keeps (events.Related h) id p) →
        a.RefusedWith .notFound ("Pet not found: " ++ id))) ∧
    (∀ id, ∃ a after, hs.step ids (.request h (.delete ⟨id⟩)) = some (a, after) ∧
      ((∃ p b, hs.step ids (.request h (.get ⟨id⟩)) = some (.response (.get ⟨some p⟩), b)) ∧
          a = .response (.delete {}) ∨
        (∀ p b, hs.step ids (.request h (.get ⟨id⟩)) ≠ some (.response (.get ⟨some p⟩), b)) ∧
          a.RefusedWith .notFound ("Pet not found: " ++ id))) := by
  have hh := List.getElem?_eq_getElem hh
  have hkeeps : ∀ id p, events.Keeps (events.Related h) id p ↔
      hs.contents hs.handles[h] id = some p := by
    intro id p
    rw [hrun.contents_eq_some_iff hids]
    exact History.keeps_congr fun e he k hk => hrun.recorded.related_iff hh
  refine ⟨fun r => ?_, fun id => ?_, fun id => ?_⟩
  · obtain ⟨after, hstep⟩ := hrun.step_request hh (.put r)
    refine ⟨_, after, hstep, ?_⟩
    cases hnamed : r.isNamed with
    | true =>
        refine .inl ⟨r.isNamed_iff.mp hnamed, ?_⟩
        simp only [PetRequest.effect, hnamed, if_true]
        rfl
    | false =>
        refine .inr ⟨?_, .blankName, ?_, rfl, rfl⟩
        · simpa [PutPetRequest.isNamed, Text.allBlank] using hnamed
        · simp only [PetRequest.effect, hnamed, Bool.false_eq_true, if_false]
          rfl
  · obtain ⟨after, hstep⟩ := hrun.step_request hh (.get ⟨id⟩)
    refine ⟨_, after, hstep, ?_⟩
    simp only [hkeeps, PetRequest.effect, PetRequest.subject]
    cases hs.contents hs.handles[h] id with
    | none =>
        refine ⟨fun p => ?_, fun _ => HandleAnswer.refusedWith_notFound id⟩
        simp [HandleAnswer.ofReply]
    | some p =>
        refine ⟨fun q => ?_, fun hnone => absurd rfl (hnone p)⟩
        simp [HandleAnswer.ofReply]
  · obtain ⟨after, hstep⟩ := hrun.step_request hh (.delete ⟨id⟩)
    obtain ⟨_, hget⟩ := hrun.step_request hh (.get ⟨id⟩)
    refine ⟨_, after, hstep, ?_⟩
    rw [hget]
    simp only [PetRequest.effect, PetRequest.subject]
    cases hs.contents hs.handles[h] id with
    | none =>
        refine .inr ⟨fun p b heq => ?_, HandleAnswer.refusedWith_notFound id⟩
        simp [HandleAnswer.ofReply] at heq
    | some p => exact .inl ⟨⟨p, _, rfl⟩, rfl⟩

/-- Two pets, one put through a handle and one through its clone. -/
def sharedHistory : History :=
  [⟨.request 0 (.put ⟨1, "Tom"⟩), .response (.put ⟨some ⟨1, "a", "Tom"⟩⟩)⟩, ⟨.clone 0, .handle 1⟩,
    ⟨.request 1 (.put ⟨-7, " Rex"⟩), .response (.put ⟨some ⟨-7, "b", " Rex"⟩⟩)⟩]

/-- Where they led: to one store behind two handles. -/
def sharedHandles : Handles :=
  ⟨[(({} : Store).insert "a" ⟨1, "a", "Tom"⟩).insert "b" ⟨-7, "b", " Rex"⟩], [0, 0], 2⟩

theorem run_sharedHistory : Run (["a", "b"].getD · "") sharedHistory sharedHandles := by
  have hstart : Run (["a", "b"].getD · "") [] single := .start
  have hput := hstart.step (Handles.step_request (k := 0) (.put ⟨1, "Tom"⟩) rfl rfl)
  have hclone := hput.step (show Handles.step _ _ (.clone 0) = _ from rfl)
  have hrun := hclone.step (Handles.step_request (k := 1) (.put ⟨-7, " Rex"⟩) rfl rfl)
  exact hrun

theorem injOn_sharedHandles : Set.InjOn (["a", "b"].getD · "") (Set.Iio sharedHandles.drawn) := by
  have hids : ∀ i < 2, ∀ j < 2, ["a", "b"].getD i "" = ["a", "b"].getD j "" → i = j := by decide
  exact fun i hi j hj => hids i hi j hj

theorem related_sharedHistory : sharedHistory.Related 0 1 :=
  .rel 0 1 (List.mem_cons_of_mem _ List.mem_cons_self)

/-- A pet put through a clone is got through the handle that was cloned. -/
theorem Run.answers_from_history_clone :
    ∃ hs after, Run (["a", "b"].getD · "") sharedHistory hs ∧
      Set.InjOn (["a", "b"].getD · "") (Set.Iio hs.drawn) ∧ 0 < hs.handles.length ∧
      hs.step (["a", "b"].getD · "") (.request 0 (.get ⟨"b"⟩)) =
        some (.response (.get ⟨some ⟨-7, "b", " Rex"⟩⟩), after) := by
  have hlength : 0 < sharedHandles.handles.length := by decide
  obtain ⟨-, hget, -⟩ := run_sharedHistory.answers_from_history injOn_sharedHandles hlength
  obtain ⟨a, after, hstep, hanswer, -⟩ := hget "b"
  obtain rfl := (hanswer ⟨-7, "b", " Rex"⟩).mpr ⟨rfl, [_, _], _, [], rfl,
    ⟨1, related_sharedHistory, rfl⟩, fun d hd => absurd hd List.not_mem_nil⟩
  exact ⟨sharedHandles, after, run_sharedHistory, injOn_sharedHandles, hlength, hstep⟩

end Handles

end Menagerie
