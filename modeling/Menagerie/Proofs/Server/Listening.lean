import Mathlib.Data.List.Nodup
import Menagerie.Listeners.Reached
import Menagerie.Proofs.Port
import Menagerie.Proofs.Server.Start

/-! Open slots exclude each other. Whatever was asked for and closed before, no two of them have one port, a
port is refused exactly while one of them has it, and it can be had again once they are closed. -/

namespace Menagerie

namespace Listeners

variable {reserved : List (UInt16 × SystemError)} {ls : Listeners} {net : Network} {name : String}
  {slot : Slot} {p : UInt16} {port : Int64}

/-- Each slot is there once, no port is held twice, and every port that a slot remembers was granted. -/
structure Sound (reserved : List (UInt16 × SystemError)) (ls : Listeners) : Prop where
  names : (ls.slots.map (·.name)).Nodup
  held : ls.held.Nodup
  granted : ∀ s ∈ ls.slots, s.port ≠ 0 ∧ reserved.lookup s.port = none

/-! ### Slots -/

theorem mem_held_iff : p ∈ ls.held ↔ ∃ s ∈ ls.slots, s.isOpen = true ∧ s.port = p := by
  simp only [held, List.mem_map, List.mem_filter, and_assoc]

theorem mem_slots_of_slot? (h : ls.slot? name = some slot) : slot ∈ ls.slots ∧ slot.name = name := by
  refine ⟨List.mem_of_find?_eq_some h, ?_⟩
  simpa using List.find?_some h

theorem slot?_put (name : String) :
    (ls.put slot).slot? name = if slot.name = name then some slot else ls.slot? name := by
  by_cases hname : slot.name = name
  · rw [if_pos hname, slot?, put, List.find?_cons_of_pos (by simpa using hname)]
  · rw [if_neg hname, slot?, put, List.find?_cons_of_neg (by simpa using hname), List.find?_filter, slot?]
    congr 1
    funext s
    by_cases hs : s.name = name
    · have hne : s.name ≠ slot.name := fun h => hname (h.symm.trans hs)
      simp [hs, Ne.symm hname]
    · simp [hs]

theorem Sound.slot?_eq_some_iff (h : Sound reserved ls) :
    ls.slot? name = some slot ↔ slot ∈ ls.slots ∧ slot.name = name := by
  constructor
  · exact mem_slots_of_slot?
  · rintro ⟨hmem, rfl⟩
    cases hfound : ls.slot? slot.name with
    | none =>
        rw [slot?, List.find?_eq_none] at hfound
        exact absurd (decide_eq_true rfl) (hfound slot hmem)
    | some other =>
        obtain ⟨hother, hname⟩ := mem_slots_of_slot? hfound
        rw [List.inj_on_of_nodup_map h.names hother hmem hname]

theorem Sound.mem_held_iff_holds (h : Sound reserved ls) : p ∈ ls.held ↔ ls.Holds p := by
  rw [mem_held_iff]
  constructor
  · rintro ⟨s, hs, hopen, hport⟩
    exact ⟨s.name, s, h.slot?_eq_some_iff.mpr ⟨hs, rfl⟩, hopen, hport⟩
  · rintro ⟨name, s, hs, hopen, hport⟩
    exact ⟨s, (mem_slots_of_slot? hs).1, hopen, hport⟩

/-- A slot is filled with a port that was granted, and that no other open slot has. -/
theorem Sound.put (h : Sound reserved ls) (hgranted : slot.port ≠ 0 ∧ reserved.lookup slot.port = none)
    (hfree : slot.isOpen = true → slot.port ∉ ls.held) : Sound reserved (ls.put slot) := by
  have hothers : (ls.slots.filter (·.name ≠ slot.name)).Sublist ls.slots := List.filter_sublist
  have hheld : (((ls.slots.filter (·.name ≠ slot.name)).filter (·.isOpen)).map (·.port)).Sublist ls.held :=
    (hothers.filter _).map _
  refine ⟨?_, ?_, fun s hs => ?_⟩
  · rw [Listeners.put, List.map_cons, List.nodup_cons]
    refine ⟨fun hmem => ?_, (hothers.map _).nodup h.names⟩
    obtain ⟨s, hs, hname⟩ := List.mem_map.mp hmem
    exact absurd hname (of_decide_eq_true (List.mem_filter.mp hs).2)
  · rw [Listeners.held, Listeners.put, List.filter_cons]
    split
    · next hopen =>
        rw [List.map_cons, List.nodup_cons]
        exact ⟨fun hmem => hfree hopen (hheld.subset hmem), hheld.nodup h.held⟩
    · exact hheld.nodup h.held
  · rcases List.mem_cons.mp hs with rfl | hs
    · exact hgranted
    · exact h.granted s (hothers.subset hs)

theorem Sound.close (h : Sound reserved ls) (name : String) : Sound reserved (ls.close name).2 := by
  rw [Listeners.close]
  cases hslot : ls.slot? name with
  | none => exact h
  | some s => exact h.put (h.granted s (mem_slots_of_slot? hslot).1) nofun

/-! ### What is granted -/

/-- A port that can be asked for is zero, or it is reserved for nobody. -/
theorem Sound.unreserved (h : Sound reserved ls) (hnet : net.Surrounds reserved ls) {choice : PortChoice}
    (hchoice : choice.IsUnprivileged) (hport : ls.port? choice = some port) (hp : port.toInt = p.toNat) :
    p = 0 ∨ reserved.lookup p = none := by
  cases choice with
  | number n =>
      obtain rfl : n = port := Option.some.inj hport
      by_cases hzero : p = 0
      · exact .inl hzero
      · have hne : p.toNat ≠ 0 := fun h => hzero (UInt16.toNat_inj.mp h)
        have hle : 1024 ≤ p := by
          rw [UInt16.le_iff_toNat_le]
          have : (1024 : UInt16).toNat = 1024 := rfl
          rcases hchoice with h | h <;> omega
        exact .inr (hnet.reserves ▸ Network.lookup_reserved_of_le hle)
  | sameAs name =>
      obtain ⟨s, hs, rfl⟩ := Option.map_eq_some_iff.mp hport
      rw [Port.toInt_ofDefault, Int.natCast_inj, UInt16.toNat_inj] at hp
      rw [← hp]
      exact .inr (h.granted s (mem_slots_of_slot? hs).1).2

/-- A port in range is granted unless it is held, and for port zero the one on offer is. -/
theorem Sound.listen_eq (h : Sound reserved ls) (hnet : net.Surrounds reserved ls) {choice : PortChoice}
    (hchoice : choice.IsUnprivileged) (hport : ls.port? choice = some port) (hp : port.toInt = p.toNat) :
    net.listen port = if p = 0 then .ok net.offer
      else if p ∈ ls.held then .error (.bind (.v4 Ip4.any p) .addressInUse) else .ok p := by
  rw [Network.listen_eq hp, Network.bind]
  by_cases hzero : p = 0
  · rw [if_pos hzero, if_pos hzero]
    rfl
  · have hfree := (h.unreserved hnet hchoice hport hp).resolve_left hzero
    rw [if_neg hzero, if_neg hzero, hnet.reserves, hfree, hnet.held]
    by_cases hheld : p ∈ ls.held
    · simp only [if_pos hheld]
      rfl
    · simp only [if_neg hheld]
      rfl

/-- What is taken is not held by an open slot, and it can be asked for again. -/
theorem Sound.taken (h : Sound reserved ls) (hnet : net.Surrounds reserved ls) {choice : PortChoice}
    (hchoice : choice.IsUnprivileged) (hport : ls.port? choice = some port) {taken : UInt16}
    (htaken : net.listen port = .ok taken) :
    taken ≠ 0 ∧ reserved.lookup taken = none ∧ taken ∉ ls.held ∧ (port.toInt ≠ 0 → taken.toNat = port.toInt) := by
  by_cases hrange : port.toInt < 0 ∨ 65535 < port.toInt
  · rw [Network.listen_of_invalid hrange] at htaken
    cases htaken
  obtain ⟨p, hp⟩ := Network.exists_port hrange
  rw [h.listen_eq hnet hchoice hport hp] at htaken
  split at htaken
  · next hzero =>
      subst hzero
      obtain rfl : net.offer = taken := Except.ok.inj htaken
      exact ⟨hnet.offer_ne_zero, hnet.offer_unreserved, hnet.offer_not_mem_held, fun hne => absurd hp hne⟩
  · next hzero =>
      split at htaken
      · cases htaken
      · next hheld =>
          obtain rfl : p = taken := Except.ok.inj htaken
          exact ⟨hzero, (h.unreserved hnet hchoice hport hp).resolve_left hzero, hheld, fun _ => hp.symm⟩

/-! ### Steps -/

theorem acquireOn_fst (slot : Option String) : (ls.acquireOn net port slot).1 = net.listen port := by
  rw [acquireOn]
  cases net.listen port with
  | error e => rfl
  | ok taken => cases slot <;> rfl

theorem acquireOn_of_error {e : StartupError} (h : net.listen port = .error e) (slot : Option String) :
    (ls.acquireOn net port slot).2 = ls := by
  rw [acquireOn, h]

/-- A listener that is granted fills the slot that was named, and no other. -/
theorem slot?_acquireOn {taken : UInt16} (h : net.listen port = .ok taken) (slot : Option String) (name : String) :
    (ls.acquireOn net port slot).2.slot? name =
      if slot = some name then some ⟨name, true, taken⟩ else ls.slot? name := by
  rw [acquireOn, h]
  cases slot with
  | none => rfl
  | some kept =>
      rw [slot?_put]
      by_cases hname : kept = name
      · rw [if_pos hname, if_pos (congrArg some hname), hname]
      · rw [if_neg hname, if_neg fun h => hname (Option.some.inj h)]

theorem Sound.acquireOn (h : Sound reserved ls) (hnet : net.Surrounds reserved ls) {choice : PortChoice}
    (hchoice : choice.IsUnprivileged) (hport : ls.port? choice = some port) (slot : Option String) :
    Sound reserved (ls.acquireOn net port slot).2 := by
  rw [Listeners.acquireOn]
  cases hlisten : net.listen port with
  | error e => exact h
  | ok taken =>
      obtain ⟨hzero, hfree, hheld, -⟩ := h.taken hnet hchoice hport hlisten
      cases slot with
      | none => exact h
      | some name => exact h.put ⟨hzero, hfree⟩ fun _ => hheld

theorem Reached.sound (reached : Reached reserved ls) : Sound reserved ls := by
  induction reached with
  | start => exact ⟨List.nodup_nil, List.nodup_nil, nofun⟩
  | acquire _ hnet hchoice hport slot ih => exact ih.acquireOn hnet hchoice hport slot
  | close _ name ih => exact ih.close name

/-- A slot that is closed keeps its port in mind. -/
theorem slot?_close (closed name : String) :
    (ls.close closed).2.slot? name =
      (ls.slot? name).map fun s => if closed = name then { s with isOpen := false } else s := by
  rw [close]
  cases hslot : ls.slot? closed with
  | none =>
      by_cases hname : closed = name
      · rw [← hname, hslot]
        rfl
      · simp [hname]
  | some s =>
      obtain ⟨-, rfl⟩ := mem_slots_of_slot? hslot
      rw [slot?_put]
      by_cases hname : s.name = name
      · simp [← hname, hslot]
      · simp [hname]

theorem slot?_closeAll (names : List String) (name : String) :
    (ls.closeAll names).slot? name =
      (ls.slot? name).map fun s => if name ∈ names then { s with isOpen := false } else s := by
  induction names generalizing ls with
  | nil => simp [closeAll]
  | cons closed names ih =>
      have hstep : ls.closeAll (closed :: names) = (ls.close closed).2.closeAll names := rfl
      rw [hstep, ih, slot?_close, Option.map_map]
      congr 1
      funext s
      by_cases hname : closed = name <;> by_cases hmem : name ∈ names <;> simp [hname, hmem, Ne.symm]

theorem Reached.closeAll (reached : Reached reserved ls) (names : List String) :
    Reached reserved (ls.closeAll names) := by
  induction names generalizing ls with
  | nil => exact reached
  | cons name names ih => exact ih (reached.close name)

/-- Closing the slots that hold a port sets it free, and no other slot takes it. -/
theorem not_holds_closeAll {names : List String}
    (h : ∀ name s, ls.slot? name = some s → s.isOpen = true → s.port = p → name ∈ names) :
    ¬(ls.closeAll names).Holds p := by
  rintro ⟨name, closed, hclosed, hopen, hport⟩
  rw [slot?_closeAll] at hclosed
  obtain ⟨s, hs, rfl⟩ := Option.map_eq_some_iff.mp hclosed
  by_cases hname : name ∈ names
  · rw [if_pos hname] at hopen
    cases hopen
  · rw [if_neg hname] at hopen hport
    exact hname (h name s hs hopen hport)

theorem port?_closeAll (names : List String) (choice : PortChoice) :
    (ls.closeAll names).port? choice = ls.port? choice := by
  cases choice with
  | number port => rfl
  | sameAs name =>
      rw [port?, port?, slot?_closeAll, Option.map_map]
      congr 1
      funext s
      by_cases hname : name ∈ names <;> simp [hname]

/-! ### Any run -/

/-- **Open slots exclude each other.** After any steps no two of them have one port. A port that is asked for is
refused as no port if it is out of range, and as an address in use exactly if an open slot has it; any other
one is granted as it is. What is refused changes nothing, and what is granted is seen in the slot that was
named alone. Once every slot that holds a port is closed, with all ports still in mind, it is granted again. -/
theorem Reached.exclusive (reached : Reached reserved ls) :
    (∀ a b s t, ls.slot? a = some s → ls.slot? b = some t → s.isOpen = true → t.isOpen = true →
      s.port = t.port → a = b) ∧
    (∀ (net : Network) (choice : PortChoice) (port : Int64) (slot : Option String),
      net.Surrounds reserved ls → choice.IsUnprivileged → ls.port? choice = some port →
      ((ls.acquireOn net port slot).1 = .error (.invalidPort port) ↔ port.toInt < 0 ∨ 65535 < port.toInt) ∧
      (∀ p : UInt16, port.toInt = p.toNat →
        ((∃ cause, cause.kindOf = .addrInUse ∧
            (ls.acquireOn net port slot).1 = .error (.bind (.v4 Ip4.any p) cause)) ↔ p ≠ 0 ∧ ls.Holds p) ∧
        ((∃ taken, (ls.acquireOn net port slot).1 = .ok taken) ↔ ¬(p ≠ 0 ∧ ls.Holds p))) ∧
      (∀ taken, (ls.acquireOn net port slot).1 = .ok taken →
        taken ≠ 0 ∧ ¬ls.Holds taken ∧ (port.toInt ≠ 0 → taken.toNat = port.toInt) ∧
          ∀ name, (ls.acquireOn net port slot).2.slot? name =
            if slot = some name then some ⟨name, true, taken⟩ else ls.slot? name) ∧
      ∀ e, (ls.acquireOn net port slot).1 = .error e → (ls.acquireOn net port slot).2 = ls) ∧
    ∀ (names : List String) (p : UInt16), p ≠ 0 →
      (∀ name s, ls.slot? name = some s → s.isOpen = true → s.port = p → name ∈ names) →
      (∀ choice, (ls.closeAll names).port? choice = ls.port? choice) ∧
      ∀ (net : Network) (choice : PortChoice) (port : Int64) (slot : Option String),
        net.Surrounds reserved (ls.closeAll names) → choice.IsUnprivileged →
        ls.port? choice = some port → port.toInt = p.toNat →
        ((ls.closeAll names).acquireOn net port slot).1 = .ok p := by
  have h := reached.sound
  refine ⟨?_, fun net choice port slot hnet hchoice hport => ?_, fun names p hzero hnames => ⟨port?_closeAll names,
    fun net choice port slot hnet hchoice hport hp => ?_⟩⟩
  · intro a b s t hs ht hsopen htopen hsame
    obtain ⟨hsmem, rfl⟩ := mem_slots_of_slot? hs
    obtain ⟨htmem, rfl⟩ := mem_slots_of_slot? ht
    rw [List.inj_on_of_nodup_map h.held (List.mem_filter.mpr ⟨hsmem, hsopen⟩)
      (List.mem_filter.mpr ⟨htmem, htopen⟩) hsame]
  · simp only [acquireOn_fst]
    refine ⟨⟨fun hinvalid => ?_, Network.listen_of_invalid⟩, fun p hp => ?_, fun taken htaken => ?_,
      fun e he => acquireOn_of_error he slot⟩
    · by_contra hrange
      obtain ⟨p, hp⟩ := Network.exists_port hrange
      rw [h.listen_eq hnet hchoice hport hp] at hinvalid
      split at hinvalid
      · cases hinvalid
      · split at hinvalid <;> cases hinvalid
    · rw [h.listen_eq hnet hchoice hport hp, ← h.mem_held_iff_holds]
      have hkind : SystemError.addressInUse.kindOf = .addrInUse := by decide
      by_cases hzero : p = 0 <;> by_cases hheld : p ∈ ls.held <;> simp [hzero, hheld, hkind]
    · obtain ⟨hzero, -, hheld, hsame⟩ := h.taken hnet hchoice hport htaken
      rw [h.mem_held_iff_holds] at hheld
      exact ⟨hzero, hheld, hsame, slot?_acquireOn htaken slot⟩
  · have hafter := (reached.closeAll names).sound
    have hfree : p ∉ (ls.closeAll names).held := by
      rw [hafter.mem_held_iff_holds]
      exact not_holds_closeAll hnames
    have hafterport : (ls.closeAll names).port? choice = some port := (port?_closeAll names choice).trans hport
    rw [acquireOn_fst, hafter.listen_eq hnet hchoice hafterport hp, if_neg hzero, if_neg hfree]

/-- Port 80 is granted to nobody. -/
def privileged : List (UInt16 × SystemError) := [(80, .number 13)]

/-- What listeners meet where port 80 is reserved. -/
def privilegedNetwork (ls : Listeners) (offer : UInt16) : Network :=
  ⟨ls.held, offer, privileged, by decide⟩

theorem surrounds_privilegedNetwork {ls : Listeners} (offer : UInt16) (hzero : offer ≠ 0)
    (hheld : offer ∉ ls.held) (hfree : privileged.lookup offer = none) :
    (privilegedNetwork ls offer).Surrounds privileged ls :=
  ⟨rfl, rfl, hzero, hheld, hfree⟩

/-- Slot `a` was offered port 40000, and then 40001 while it was open, so that the first listener was closed.
Slot `b` was closed and then got the port again that it had in mind. -/
def twoSlots : Listeners := ⟨[⟨"b", true, 8080⟩, ⟨"a", true, 40001⟩]⟩

theorem reached_twoSlots : Reached privileged twoSlots := by
  have hany : (PortChoice.number 0).IsUnprivileged := .inl (by decide)
  have hnumber : (PortChoice.number 8080).IsUnprivileged := .inr (by decide)
  have hoffered : Reached privileged ⟨[⟨"a", true, 40000⟩]⟩ :=
    Reached.start.acquire (surrounds_privilegedNetwork 40000 (by decide) (by decide) (by decide)) hany rfl (some "a")
  have hnumbered : Reached privileged ⟨[⟨"b", true, 8080⟩, ⟨"a", true, 40000⟩]⟩ :=
    hoffered.acquire (surrounds_privilegedNetwork 40001 (by decide) (by decide) (by decide)) hnumber rfl (some "b")
  have hreplaced : Reached privileged ⟨[⟨"a", true, 40001⟩, ⟨"b", true, 8080⟩]⟩ :=
    hnumbered.acquire (surrounds_privilegedNetwork 40001 (by decide) (by decide) (by decide)) hany rfl (some "a")
  have hclosed : Reached privileged ⟨[⟨"b", false, 8080⟩, ⟨"a", true, 40001⟩]⟩ := hreplaced.close "b"
  have hremembered : (PortChoice.sameAs "b").IsUnprivileged := trivial
  exact hclosed.acquire (surrounds_privilegedNetwork 40002 (by decide) (by decide) (by decide)) hremembered rfl (some "b")

/-- The port of an open slot is refused, also to the slot that has it, and granted once that slot is closed. -/
theorem Reached.exclusive_twoSlots :
    Reached privileged twoSlots ∧ twoSlots.port? (.sameAs "b") = some 8080 ∧
      (∃ cause, cause.kindOf = .addrInUse ∧
        (twoSlots.acquireOn (privilegedNetwork twoSlots 40002) 8080 (some "b")).1 =
          .error (.bind (.v4 Ip4.any 8080) cause)) ∧
      ((twoSlots.closeAll ["b"]).acquireOn (privilegedNetwork (twoSlots.closeAll ["b"]) 40002) 8080 none).1 =
        .ok 8080 := by
  obtain ⟨-, hacquire, hclose⟩ := reached_twoSlots.exclusive
  have hremembered : twoSlots.port? (.sameAs "b") = some 8080 := rfl
  have hnet : (privilegedNetwork twoSlots 40002).Surrounds privileged twoSlots :=
    surrounds_privilegedNetwork 40002 (by decide) (by decide) (by decide)
  obtain ⟨-, hinRange, -⟩ := hacquire _ (.sameAs "b") 8080 (some "b") hnet trivial hremembered
  have hrefused := (hinRange 8080 (by decide)).1.mpr ⟨by decide, "b", ⟨"b", true, 8080⟩, rfl, rfl, rfl⟩
  have hholders : ∀ name s, twoSlots.slot? name = some s → s.isOpen = true → s.port = 8080 → name ∈ ["b"] := by
    intro name s hs _ hport
    obtain ⟨hmem, rfl⟩ := mem_slots_of_slot? hs
    rcases List.mem_pair.mp hmem with rfl | rfl
    · exact List.mem_cons_self
    · cases hport
  obtain ⟨-, hgranted⟩ := hclose ["b"] 8080 (by decide) hholders
  exact ⟨reached_twoSlots, hremembered, hrefused, hgranted _ (.sameAs "b") 8080 none
    (surrounds_privilegedNetwork 40002 (by decide) (by decide) (by decide)) trivial hremembered (by decide)⟩

end Listeners

end Menagerie
