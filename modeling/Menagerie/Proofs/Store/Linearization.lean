import Mathlib.Data.List.Nodup
import Menagerie.Proofs.Store.Serving

/-! Requests at the same time are answered as if one had come after the other. A request counts from the
step that finds its answer: a put with a blank name from the look at the name, any other from its turn
at the store. Every other step leaves the store and all answers alone. -/

namespace Menagerie

/-- A pair in order stands in a list already, or ends with the element that was added. -/
theorem pair_sublist_concat {α : Type} {xs : List α} {x a b : α} :
    [a, b].Sublist (xs ++ [x]) ↔ [a, b].Sublist xs ∨ a ∈ xs ∧ b = x := by
  constructor
  · intro h
    obtain ⟨front, back, heq, hfront, hback⟩ := List.sublist_append_iff.mp h
    rcases List.sublist_cons_iff.mp hback with hback | ⟨rest, rfl, hrest⟩
    · rw [List.sublist_nil.mp hback, List.append_nil] at heq
      exact .inl (heq ▸ hfront)
    · obtain rfl := List.sublist_nil.mp hrest
      have heq : [a] ++ [b] = front ++ [x] := heq
      obtain ⟨rfl, hb⟩ := List.append_inj' heq rfl
      exact .inr ⟨List.singleton_sublist.mp hfront, List.singleton_inj.mp hb⟩
  · rintro (h | ⟨ha, rfl⟩)
    · exact h.trans (List.sublist_append_left xs [x])
    · exact (List.singleton_sublist.mpr ha).append (List.Sublist.refl [b])

theorem Store.erase_eq_self {s : Store} {id : String} (h : s.get? id = none) : s.erase id = s := by
  obtain ⟨entries, hnodup⟩ := s
  have hnone := List.find?_eq_none.mp (Option.map_eq_none_iff.mp h)
  have hentries : entries.filter (·.1 ≠ id) = entries :=
    List.filter_eq_self.mpr fun e he => by simpa using hnone e he
  simp only [erase, hentries]

theorem Flight.number_eq {f : Flight} {n : Nat} {x : Settlement} (h : f.settlement? n = some x) :
    x.number = n := by
  obtain ⟨r, stage⟩ := f
  cases stage <;> cases h <;> rfl

theorem Flight.id?_eq {f : Flight} {n : Nat} {x : Settlement} (h : f.settlement? n = some x) :
    f.stage.id? = x.id? := by
  obtain ⟨r, stage⟩ := f
  cases stage <;> cases h <;> rfl

namespace Traffic

variable {init : Store} {t t' : Traffic} {m : Move} {moves : List Move} {order : List Settlement}

theorem settlement?_advance (t : Traffic) (n : Nat) (s : Store) (r : PetRequest) (stage : Stage)
    (k : Nat) : (t.advance n s r stage).settlement? k =
      if k = n then Flight.settlement? n ⟨r, stage⟩ else t.settlement? k := by
  by_cases hk : k = n
  · subst hk
    rw [if_pos rfl, settlement?, flights_advance_self, Option.bind_some]
  · rw [if_neg hk, settlement?, flights_advance_of_ne t hk, settlement?]

theorem settlement?_eq {n : Nat} {f : Flight} (hn : t.flights n = some f) :
    t.settlement? n = f.settlement? n := by
  rw [settlement?, hn, Option.bind_some]

theorem Settled.flight {x : Settlement} (h : t.Settled x) :
    ∃ f, t.flights x.number = some f ∧ f.settlement? x.number = some x := Option.bind_eq_some_iff.mp h

theorem settled_of_settlement? {n : Nat} {x : Settlement} (h : t.settlement? n = some x) :
    x.number = n ∧ t.Settled x := by
  obtain ⟨f, -, hf⟩ := Option.bind_eq_some_iff.mp h
  obtain rfl := f.number_eq hf
  exact ⟨rfl, h⟩

/-! ### What a step does -/

/-- A put that has drawn an id has a name. -/
def DrawnNamed (t : Traffic) : Prop :=
  ∀ n r id, t.flights n = some ⟨.put r, .drawn id⟩ → r.isNamed = true

theorem DrawnNamed.advance (h : t.DrawnNamed) (n : Nat) (s : Store) (r : PetRequest) (stage : Stage)
    (hstage : ∀ q id, r = .put q → stage = .drawn id → q.isNamed = true) :
    (t.advance n s r stage).DrawnNamed := by
  intro k q id hk
  by_cases hkn : k = n
  · subst hkn
    rw [flights_advance_self] at hk
    obtain ⟨hr, hstage'⟩ := Flight.mk.inj (Option.some.inj hk)
    exact hstage q id hr hstage'
  · rw [flights_advance_of_ne t hkn] at hk
    exact h k q id hk

theorem Step.drawnNamed (h : Step t m t') (hnamed : t.DrawnNamed) : t'.DrawnNamed := by
  cases h with
  | draw id hn hname =>
      refine hnamed.advance _ _ _ _ fun q _ hq _ => ?_
      cases hq
      exact hname
  | _ => exact hnamed.advance _ _ _ _ fun _ _ _ => nofun

theorem Run.drawnNamed (hrun : Run init moves t) : t.DrawnNamed := by
  induction hrun with
  | start => exact fun _ _ _ => nofun
  | step _ next ih => exact next.drawnNamed ih

/-- A step finds the answer of one request, or leaves the store and all answers alone. -/
inductive Progress (t : Traffic) (m : Move) (t' : Traffic) : Prop
  | quiet (htouch : ∀ n, m ≠ .touch n) (hbegins : ∀ n r, m = .begins n r → t.settlement? n = none)
      (hreply : ∀ n, m = .reply n → (t.settlement? n).isSome) (hstore : t'.store = t.store)
      (hsettled : ∀ n, t'.settlement? n = t.settlement? n)
  | settles (x : Settlement) (hmove : m = .touch x.number ∨ m = .check x.number)
      (hnone : t.settlement? x.number = none)
      (hsettled : ∀ n, t'.settlement? n = if n = x.number then some x else t.settlement? n)
      (hserve : t.store.answer x.id x.request = (x.answer, t'.store))
      (hdrawn : ∀ p, x.answer = .ok (.put ⟨some p⟩) → x.id? = some p.id)

/-- A request goes on, and what is settled of it stays so. -/
theorem Progress.of_advance {n : Nat} {r : PetRequest} {stage : Stage} (htouch : ∀ k, m ≠ .touch k)
    (hbegins : ∀ k q, m = .begins k q → t.settlement? k = none)
    (hreply : ∀ k, m = .reply k → (t.settlement? k).isSome)
    (hstage : Flight.settlement? n ⟨r, stage⟩ = t.settlement? n) :
    Progress t m (t.advance n t.store r stage) := by
  refine .quiet htouch hbegins hreply rfl fun k => ?_
  rw [settlement?_advance]
  by_cases hk : k = n
  · rw [if_pos hk, hstage, hk]
  · rw [if_neg hk]

theorem Step.progress (h : Step t m t') (hnamed : t.DrawnNamed) : Progress t m t' := by
  cases h with
  | @begins n r hn =>
      have hnone : t.settlement? n = none := by rw [settlement?, hn, Option.bind_none]
      refine .of_advance (by simp) (fun k q heq => ?_) (by simp) hnone.symm
      cases heq
      exact hnone
  | @reject n r hn hname =>
      refine .settles ⟨n, .put r, none, .error .blankName⟩ (.inr rfl) (settlement?_eq hn)
        (settlement?_advance t n _ _ _) ?_ (by simp)
      simp only [Store.answer, hname, Bool.false_eq_true, if_false]
      rfl
  | @draw n r id hn hname =>
      exact .of_advance (by simp) (by simp) (by simp) (settlement?_eq hn).symm
  | @insert n r id hn =>
      refine .settles ⟨n, .put r, some id, .ok (.put ⟨some (r.pet id)⟩)⟩ (.inl rfl) (settlement?_eq hn)
        (settlement?_advance t n _ _ _) ?_ fun p hp => ?_
      · simp only [Store.answer, hnamed n r id hn, if_true]
        rfl
      · cases hp
        rfl
  | @get n r hn =>
      refine .settles ⟨n, .get r, none, _⟩ (.inl rfl) (settlement?_eq hn)
        (settlement?_advance t n _ _ _) ?_ fun p hp => ?_
      · simp only [Store.answer]
        cases t.store.get? r.id <;> rfl
      · cases hfound : t.store.get? r.id <;> rw [hfound] at hp <;> cases hp
  | @delete n r hn =>
      refine .settles ⟨n, .delete r, none, _⟩ (.inl rfl) (settlement?_eq hn)
        (settlement?_advance t n _ _ _) ?_ fun p hp => ?_
      · simp only [Store.answer]
        cases hfound : t.store.get? r.id with
        | none => exact Prod.ext rfl (Store.erase_eq_self hfound).symm
        | some p => rfl
      · cases hfound : t.store.get? r.id <;> rw [hfound] at hp <;> cases hp
  | @reply n r id a hn =>
      refine .of_advance (by simp) (by simp) (fun k heq => ?_) (settlement?_eq hn).symm
      cases heq
      rw [settlement?_eq hn]
      rfl

/-! ### An order for the requests -/

/-- An order in which the requests can be answered one at a time, with the same answers and the same
store. -/
structure Linearization (init : Store) (moves : List Move) (t : Traffic) (order : List Settlement) :
    Prop where
  mem_iff : ∀ x, x ∈ order ↔ t.Settled x
  nodup : (order.map (·.number)).Nodup
  serve_eq : init.serve order = (order.map (·.answer), t.store)
  /-- Requests come in the order of their turns at the store. -/
  touches : ∀ a b, [.touch a, .touch b].Sublist moves → [a, b].Sublist (order.map (·.number))
  /-- A request that replied before another one began comes before it. -/
  replies : ∀ a b r, [.reply a, .begins b r].Sublist moves → b ∈ order.map (·.number) →
    [a, b].Sublist (order.map (·.number))

/-- What steps keep of an order, with the request that is settled last at its end. -/
structure Serial (init : Store) (moves : List Move) (t : Traffic) (order : List Settlement) : Prop
    extends Linearization init moves t order where
  drawn : ∀ x ∈ order, ∀ p, x.answer = .ok (.put ⟨some p⟩) → x.id? = some p.id
  touched : ∀ n, .touch n ∈ moves → n ∈ order.map (·.number)
  replied : ∀ n, .reply n ∈ moves → n ∈ order.map (·.number)

theorem Serial.start (init : Store) : Serial init [] (start init) [] where
  mem_iff _ := iff_of_false List.not_mem_nil nofun
  nodup := List.nodup_nil
  serve_eq := rfl
  touches _ _ h := nomatch h
  replies _ _ _ h := nomatch h
  drawn _ hx := absurd hx List.not_mem_nil
  touched _ hn := absurd hn List.not_mem_nil
  replied _ hn := absurd hn List.not_mem_nil

theorem Linearization.mem_number_iff (h : Linearization init moves t order) {n : Nat} :
    n ∈ order.map (·.number) ↔ (t.settlement? n).isSome := by
  rw [List.mem_map, Option.isSome_iff_exists]
  constructor
  · rintro ⟨x, hx, rfl⟩
    exact ⟨x, (h.mem_iff x).mp hx⟩
  · rintro ⟨x, hx⟩
    obtain ⟨hnumber, hsettled⟩ := settled_of_settlement? hx
    exact ⟨x, (h.mem_iff x).mpr hsettled, hnumber⟩

theorem Serial.quiet (h : Serial init moves t order) (htouch : ∀ n, m ≠ .touch n)
    (hbegins : ∀ n r, m = .begins n r → t.settlement? n = none)
    (hreply : ∀ n, m = .reply n → (t.settlement? n).isSome) (hstore : t'.store = t.store)
    (hsettled : ∀ n, t'.settlement? n = t.settlement? n) : Serial init (moves ++ [m]) t' order where
  mem_iff x := by
    rw [Settled, hsettled]
    exact h.mem_iff x
  nodup := h.nodup
  serve_eq := hstore ▸ h.serve_eq
  touches a b hab := by
    rcases pair_sublist_concat.mp hab with hab | ⟨-, hb⟩
    · exact h.touches a b hab
    · exact absurd hb.symm (htouch b)
  replies a b r hab hb := by
    rcases pair_sublist_concat.mp hab with hab | ⟨-, hm⟩
    · exact h.replies a b r hab hb
    · have hsome := h.mem_number_iff.mp hb
      rw [hbegins b r hm.symm] at hsome
      cases hsome
  drawn := h.drawn
  touched n hn := by
    rcases List.mem_append.mp hn with hn | hn
    · exact h.touched n hn
    · exact absurd (List.mem_singleton.mp hn).symm (htouch n)
  replied n hn := by
    rcases List.mem_append.mp hn with hn | hn
    · exact h.replied n hn
    · exact h.mem_number_iff.mpr (hreply n (List.mem_singleton.mp hn).symm)

/-- A request that is settled now comes last. -/
theorem Linearization.mem_concat_iff (h : Linearization init moves t order) {x : Settlement}
    (hnone : t.settlement? x.number = none)
    (hsettled : ∀ n, t'.settlement? n = if n = x.number then some x else t.settlement? n)
    (y : Settlement) : y ∈ order ++ [x] ↔ t'.Settled y := by
  rw [Settled, hsettled, List.mem_append, List.mem_singleton]
  by_cases hy : y.number = x.number
  · have hold : y ∉ order := by
      intro hmem
      have hsome : t.settlement? y.number = some y := (h.mem_iff y).mp hmem
      rw [hy, hnone] at hsome
      cases hsome
    rw [if_pos hy, or_iff_right hold]
    exact ⟨fun heq => congrArg some heq.symm, fun heq => (Option.some.inj heq).symm⟩
  · rw [if_neg hy, or_iff_left fun heq => hy (congrArg Settlement.number heq)]
    exact h.mem_iff y

theorem Serial.settles (h : Serial init moves t order) (x : Settlement)
    (hmove : m = .touch x.number ∨ m = .check x.number) (hnone : t.settlement? x.number = none)
    (hsettled : ∀ n, t'.settlement? n = if n = x.number then some x else t.settlement? n)
    (hserve : t.store.answer x.id x.request = (x.answer, t'.store))
    (hdrawn : ∀ p, x.answer = .ok (.put ⟨some p⟩) → x.id? = some p.id) :
    Serial init (moves ++ [m]) t' (order ++ [x]) := by
  have hnew : x.number ∉ order.map (·.number) := by
    rw [h.mem_number_iff, hnone]
    exact Bool.false_ne_true
  have htouch : ∀ n, .touch n = m → n = x.number := by
    intro n hn
    rcases hmove with hmove | hmove
    · exact Move.touch.inj (hn.trans hmove)
    · cases hn.trans hmove
  have hother : (∀ n, .reply n ≠ m) ∧ ∀ n r, .begins n r ≠ m := by
    rcases hmove with rfl | rfl <;> simp
  refine
    { mem_iff := h.mem_concat_iff hnone hsettled
      nodup := ?nodup
      serve_eq := ?serve
      touches := ?touches
      replies := ?replies
      drawn := ?drawn
      touched := ?touched
      replied := ?replied }
  case nodup =>
    rw [List.map_append]
    refine List.nodup_append.mpr ⟨h.nodup, List.nodup_singleton _, fun n hn k hk heq => hnew ?_⟩
    rwa [heq, List.mem_singleton.mp hk] at hn
  case serve =>
    rw [Store.serve_concat, h.serve_eq, hserve, List.map_append]
    rfl
  case touches =>
    intro a b hab
    rw [List.map_append]
    apply pair_sublist_concat.mpr
    rcases pair_sublist_concat.mp hab with hab | ⟨ha, hb⟩
    · exact .inl (h.touches a b hab)
    · exact .inr ⟨h.touched a ha, htouch b hb⟩
  case replies =>
    intro a b r hab hb
    rw [List.map_append] at hb ⊢
    apply pair_sublist_concat.mpr
    rcases pair_sublist_concat.mp hab with hab | ⟨-, hm⟩
    · rcases List.mem_append.mp hb with hb | hb
      · exact .inl (h.replies a b r hab hb)
      · exact .inr ⟨h.replied a (hab.subset List.mem_cons_self), List.mem_singleton.mp hb⟩
    · exact absurd hm (hother.2 b r)
  case drawn =>
    intro y hy
    rcases List.mem_append.mp hy with hy | hy
    · exact h.drawn y hy
    · obtain rfl := List.mem_singleton.mp hy
      exact hdrawn
  case touched =>
    intro n hn
    rw [List.map_append, List.mem_append]
    rcases List.mem_append.mp hn with hn | hn
    · exact .inl (h.touched n hn)
    · exact .inr (List.mem_singleton.mpr (htouch n (List.mem_singleton.mp hn)))
  case replied =>
    intro n hn
    rw [List.map_append, List.mem_append]
    rcases List.mem_append.mp hn with hn | hn
    · exact .inl (h.replied n hn)
    · exact absurd (List.mem_singleton.mp hn) (hother.1 n)

theorem Run.exists_serial (hrun : Run init moves t) : ∃ order, Serial init moves t order := by
  induction hrun with
  | start => exact ⟨[], .start init⟩
  | step run next ih =>
      obtain ⟨order, h⟩ := ih
      cases next.progress run.drawnNamed with
      | quiet htouch hbegins hreply hstore hsettled =>
          exact ⟨order, h.quiet htouch hbegins hreply hstore hsettled⟩
      | settles x hmove hnone hsettled hserve hdrawn =>
          exact ⟨order ++ [x], h.settles x hmove hnone hsettled hserve hdrawn⟩

/-! ### What is put and deleted -/

theorem Settled.drew {x : Settlement} {id : String} (h : t.Settled x) (hid : x.id? = some id) :
    t.Drew x.number id := by
  obtain ⟨f, hf, hx⟩ := h.flight
  exact ⟨f, hf, (f.id?_eq hx).trans hid⟩

/-- If no id was drawn twice or was there before, every pet is put under an id of its own. -/
theorem Serial.distinct (h : Serial init moves t order)
    (hids : ∀ m n id, t.Drew m id → t.Drew n id → m = n)
    (hfresh : ∀ n id, t.Drew n id → init.get? id = none) : Settlement.Distinct init order := by
  have hdrew : ∀ x ∈ order, ∀ id p, x.Puts id p → t.Drew x.number id := by
    rintro x hx id p ⟨hanswer, rfl⟩
    exact ((h.mem_iff x).mp hx).drew (h.drawn x hx p hanswer)
  refine ⟨h.nodup.of_map, fun x hx id p hputs => ?_, fun x hx y hy id p q hxputs hyputs => ?_⟩
  · exact hfresh x.number id (hdrew x hx id p hputs)
  · have hnumber := hids x.number y.number id (hdrew x hx id p hxputs) (hdrew y hy id q hyputs)
    exact List.inj_on_of_nodup_map h.nodup hx hy hnumber

/-- **Requests at the same time are answered as if one came after the other.** Whatever the order of
their steps, some order of the requests that are settled has each of them answered alone, with the same
answers and the same store at the end. It keeps the order of their turns at the store, and a request
that replied before another one began. If moreover no id is drawn twice or was there before, the store
has what it had and what was put, less what was deleted, and no id is deleted twice. -/
theorem Run.linearizable (hrun : Run init moves t) :
    (∃ order, Linearization init moves t order) ∧
    ((∀ m n id, t.Drew m id → t.Drew n id → m = n) → (∀ n id, t.Drew n id → init.get? id = none) →
      (∀ id p, t.store.get? id = some p ↔
        (init.get? id = some p ∨ ∃ x, t.Settled x ∧ x.Puts id p) ∧ ¬∃ x, t.Settled x ∧ x.Deletes id) ∧
      ∀ id x y, t.Settled x → t.Settled y → x.Deletes id → y.Deletes id → x = y) := by
  obtain ⟨order, h⟩ := hrun.exists_serial
  refine ⟨⟨order, h.toLinearization⟩, fun hids hfresh => ?_⟩
  have htally := (h.distinct hids hfresh).tally (congrArg Prod.fst h.serve_eq)
  rw [h.serve_eq] at htally
  simp only [← h.mem_iff]
  exact ⟨htally.get?_iff, fun id x y hx hy => htally.delete_unique x hx y hy id⟩

/-- A put, and two deletes of the id that it has drawn. The put is the first at the store, the delete
that began last is the second. -/
def overlapping : List Move :=
  [.begins 0 (.put ⟨1, "Tom"⟩), .check 0, .begins 1 (.delete ⟨"a"⟩), .begins 2 (.delete ⟨"a"⟩), .touch 0,
    .touch 2, .touch 1, .reply 1]

/-- After them the id is free, and one of the two deletes was granted. -/
theorem Run.linearizable_overlapping :
    ∃ t, Run {} overlapping t ∧ (∀ m n id, t.Drew m id → t.Drew n id → m = n) ∧
      (∀ n id, t.Drew n id → ({} : Store).get? id = none) ∧
      (∃ order, Linearization {} overlapping t order) ∧ t.store.get? "a" = none ∧
      ∃! x, t.Settled x ∧ x.Deletes "a" := by
  have hstart : Run {} [] (Traffic.start {}) := .start
  have hbegun := hstart.step (.begins (n := 0) (.put ⟨1, "Tom"⟩) rfl)
  have hdrawn := hbegun.step (.draw (n := 0) "a" rfl rfl)
  have hdeletes := (hdrawn.step (.begins (n := 1) (.delete ⟨"a"⟩) rfl)).step
    (.begins (n := 2) (.delete ⟨"a"⟩) rfl)
  have hput := hdeletes.step (.insert (n := 0) rfl)
  have hrun := ((hput.step (.delete (n := 2) rfl)).step (.delete (n := 1) rfl)).step (.reply (n := 1) rfl)
  refine ⟨_, hrun, ?_⟩
  generalize ht : Traffic.advance _ _ _ _ _ = t at hrun
  have hdrew : ∀ n id, t.Drew n id → n = 0 := by
    rintro n id ⟨f, hf, hid⟩
    subst ht
    match n with
    | 0 => rfl
    | 1 =>
        cases hf
        cases hid
    | 2 =>
        cases hf
        cases hid
    | n + 3 => cases hf
  have hids : ∀ m n id, t.Drew m id → t.Drew n id → m = n :=
    fun m n id hm hn => (hdrew m id hm).trans (hdrew n id hn).symm
  have hfresh : ∀ n id, t.Drew n id → ({} : Store).get? id = none := fun _ _ _ => rfl
  obtain ⟨horder, hgranted⟩ := hrun.linearizable
  obtain ⟨hget, hunique⟩ := hgranted hids hfresh
  have hsettled : t.Settled ⟨2, .delete ⟨"a"⟩, none, .ok (.delete {})⟩ := by
    rw [← ht]
    rfl
  refine ⟨hids, hfresh, horder, ?_, ⟨2, .delete ⟨"a"⟩, none, .ok (.delete {})⟩, ⟨hsettled, rfl, rfl⟩, ?_⟩
  · rw [Option.eq_none_iff_forall_ne_some]
    intro p hp
    exact ((hget "a" p).mp hp).2 ⟨_, hsettled, rfl, rfl⟩
  · rintro y ⟨hy, hdeleted⟩
    exact hunique "a" y _ hy hsettled hdeleted ⟨rfl, rfl⟩

end Traffic

end Menagerie
