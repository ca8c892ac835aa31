import Menagerie.Proofs.Server.Composition
import Menagerie.Server.Start

/-! Starting goes through its stages in order. A number that is no port, and a port that is not granted,
end it before any registration runs; an obstacle to the composition ends it with the listener closed
again; and only a server that is composed serves, at the port that was asked for. -/

namespace Menagerie

namespace Port

theorem valid?_eq_some_iff {port : Int64} {p : UInt16} :
    valid? port = some p ↔ port.toInt = p.toNat := by
  have hp : p.toNat < 65536 := p.toNat_lt
  unfold valid?
  split
  · next h =>
      rw [Option.some.injEq, ← UInt16.toNat_inj, UInt16.toNat_ofNat']
      omega
  · next h =>
      simp only [reduceCtorEq, false_iff]
      omega

theorem valid?_eq_none_iff {port : Int64} :
    valid? port = none ↔ port.toInt < 0 ∨ 65535 < port.toInt := by
  unfold valid?
  split
  · next h =>
      simp only [reduceCtorEq, false_iff]
      omega
  · next h =>
      simp only [true_iff]
      omega

end Port

namespace Network

variable {net : Network} {p taken : UInt16} {port : Int64}

theorem bind_of_mem_held (hp : p ≠ 0) (hheld : p ∈ net.held) : ∃ cause, net.bind p = .error cause := by
  unfold bind
  rw [if_neg hp]
  cases net.reserved.lookup p with
  | some cause => exact ⟨cause, rfl⟩
  | none => exact ⟨.addressInUse, if_pos hheld⟩

theorem lookup_reserved_of_le (hp : 1024 ≤ p) : net.reserved.lookup p = none := by
  rw [List.lookup_eq_none_iff]
  intro r hr
  have hlt := net.reserved_lt r hr
  simp only [bne_iff_ne, ne_eq]
  rintro rfl
  exact absurd hp (UInt16.not_le.mpr hlt)

theorem bind_of_not_mem_held (hp : 1024 ≤ p) (hheld : p ∉ net.held) : net.bind p = .ok p := by
  have hzero : p ≠ 0 := by
    rintro rfl
    exact absurd hp (by decide)
  rw [bind, if_neg hzero, lookup_reserved_of_le hp]
  exact if_neg hheld

/-- A port that is asked for by its number is granted as it is, and only if nobody holds it. -/
theorem bind_eq_ok (hp : p ≠ 0) (h : net.bind p = .ok taken) : taken = p ∧ p ∉ net.held := by
  unfold bind at h
  rw [if_neg hp] at h
  cases hlookup : net.reserved.lookup p with
  | some cause => simp [hlookup] at h
  | none =>
      simp only [hlookup] at h
      split at h
      · cases h
      · next hheld => exact ⟨(Except.ok.inj h).symm, hheld⟩

theorem listen_of_invalid (h : port.toInt < 0 ∨ 65535 < port.toInt) :
    net.listen port = .error (.invalidPort port) := by
  rw [listen, Port.valid?_eq_none_iff.mpr h]

theorem listen_eq (h : port.toInt = p.toNat) :
    net.listen port = (net.bind p).mapError (.bind (.anyAt p)) := by
  simp only [listen, Port.valid?_eq_some_iff.mpr h]
  cases net.bind p <;> rfl

theorem exists_port (h : ¬(port.toInt < 0 ∨ 65535 < port.toInt)) :
    ∃ p : UInt16, port.toInt = p.toNat := by
  rw [← Port.valid?_eq_none_iff, ← ne_eq, Option.ne_none_iff_exists'] at h
  obtain ⟨p, hp⟩ := h
  exact ⟨p, Port.valid?_eq_some_iff.mp hp⟩

theorem listen_fails_iff : (∃ e, net.listen port = .error e) ↔
    ∀ p taken, port.toInt = UInt16.toNat p → net.bind p ≠ .ok taken := by
  constructor
  · rintro ⟨e, he⟩ p taken hp htaken
    rw [listen_eq hp, htaken] at he
    cases he
  · intro h
    by_cases hport : port.toInt < 0 ∨ 65535 < port.toInt
    · exact ⟨_, listen_of_invalid hport⟩
    · obtain ⟨p, hp⟩ := exists_port hport
      rw [listen_eq hp]
      cases hbind : net.bind p with
      | ok taken => exact absurd hbind (h p taken hp)
      | error cause => exact ⟨_, rfl⟩

/-- Whoever does not get to listen is told so. -/
theorem isBind_of_listen {e : StartupError} (h : net.listen port = .error e) : e.isBind = true := by
  by_cases hport : port.toInt < 0 ∨ 65535 < port.toInt
  · rw [listen_of_invalid hport] at h
    obtain rfl := Except.error.inj h
    rfl
  · obtain ⟨p, hp⟩ := exists_port hport
    rw [listen_eq hp] at h
    cases hbind : net.bind p with
    | ok taken =>
        rw [hbind] at h
        cases h
    | error cause =>
        rw [hbind] at h
        obtain rfl := Except.error.inj h
        rfl

end Network

theorem StartupError.isBind_iff {e : StartupError} :
    e.isBind = true ↔ (∃ address cause, e = .bind address cause) ∨ ∃ port, e = .invalidPort port := by
  cases e <;> simp [isBind]

/-! ### Stages -/

section

variable {net : Network} {settings : ServerSettings} {rs : List Registration}

theorem start_of_listen_error {e : StartupError} (h : net.listen settings.port = .error e) :
    start net settings rs = ⟨none, .error (.failed e), net.held⟩ := by
  rw [start, h]

theorem start_of_obstacle {taken : UInt16} {o : Obstacle} (h : net.listen settings.port = .ok taken)
    (ho : (compose rs).result = .error o) :
    start net settings rs = ⟨some (compose rs), .error o, net.held⟩ := by
  simp only [start, h, ho]

theorem start_of_composed {taken : UInt16} {server : ComposedServer}
    (h : net.listen settings.port = .ok taken) (hserver : (compose rs).result = .ok server) :
    start net settings rs = ⟨some (compose rs), .ok ⟨taken, server⟩, taken :: net.held⟩ := by
  simp only [start, h, hserver]

/-- A composition that fails ends with the error of its first registration that is stopped. -/
theorem exists_fails_of_compose {e : StartupError} (h : (compose rs).result = .error (.failed e)) :
    ∃ k, rs[k]? = some (.fails e) ∧ ∀ j < k, ∀ o, ¬Obstructed rs j o := by
  have hclear : ¬Clear rs := by
    rw [← composes_iff_clear, h]
    nofun
  obtain ⟨k, o, ho, hfirst⟩ := exists_first_obstructed hclear
  obtain ⟨names, -, hcompose⟩ := compose_of_obstructed ho hfirst
  rw [hcompose] at h
  obtain rfl := Except.error.inj h
  obtain ⟨r, hr, hstops⟩ := ho
  cases hstops with
  | fails => exact ⟨k, hr, clear_take_iff.mp hfirst⟩

/-- What a failed start says of itself: it failed to listen, or the first registration that is stopped
failed as one that could not listen. -/
theorem isBind_of_start {e : StartupError} (h : (start net settings rs).result = .error (.failed e)) :
    e.isBind = true ↔ (∃ cause, net.listen settings.port = .error cause) ∨
      ∃ k e', rs[k]? = some (.fails e') ∧ (∀ j < k, ∀ o, ¬Obstructed rs j o) ∧
        ((∃ address cause, e' = .bind address cause) ∨ ∃ port, e' = .invalidPort port) := by
  cases hlisten : net.listen settings.port with
  | error cause =>
      rw [start_of_listen_error hlisten] at h
      obtain rfl := Obstacle.failed.inj (Except.error.inj h)
      exact iff_of_true (Network.isBind_of_listen hlisten) (.inl ⟨_, rfl⟩)
  | ok taken =>
      cases hcompose : (compose rs).result with
      | ok server =>
          rw [start_of_composed hlisten hcompose] at h
          cases h
      | error o =>
          rw [start_of_obstacle hlisten hcompose] at h
          obtain rfl := Except.error.inj h
          obtain ⟨k, hk, hfirst⟩ := exists_fails_of_compose hcompose
          rw [StartupError.isBind_iff]
          constructor
          · exact fun he => .inr ⟨k, e, hk, hfirst, he⟩
          · rintro (⟨cause, hcause⟩ | ⟨k', e', hk', hfirst', he'⟩)
            · cases hcause
            · have hsame : k' = k := by
                rcases Nat.lt_trichotomy k' k with hlt | heq | hlt
                · exact absurd ⟨_, hk', .fails e'⟩ (hfirst k' hlt _)
                · exact heq
                · exact absurd ⟨_, hk, .fails e⟩ (hfirst' k hlt _)
              subst hsame
              obtain rfl := Registration.fails.inj (Option.some.inj (hk.symm.trans hk'))
              exact he'

end

/-- **A start goes through its stages in order.** A number out of range is reported as it was given, and a
port that is not granted with its address and the cause; no registration has run then. A port that
somebody holds is not granted, and every other one from 1024 on is. Where it is, the registrations that
run are those of the composition, and an obstacle to it is reported unchanged, with the listener
closed. Only a composed server serves, at the port that was asked for. -/
theorem start_in_stages (net : Network) (settings : ServerSettings) (rs : List Registration) :
    (settings.port.toInt < 0 ∨ 65535 < settings.port.toInt →
      (start net settings rs).result = .error (.failed (.invalidPort settings.port)) ∧
        (start net settings rs).tried = [] ∧ (start net settings rs).held = net.held) ∧
    (∀ p : UInt16, settings.port.toInt = p.toNat →
      (p ≠ 0 → p ∈ net.held → ∃ cause, net.bind p = .error cause) ∧
      (1024 ≤ p → p ∉ net.held → net.bind p = .ok p) ∧
      (∀ cause, net.bind p = .error cause →
        (start net settings rs).result = .error (.failed (.bind (.v4 Ip4.any p) cause)) ∧
          (start net settings rs).tried = [] ∧ (start net settings rs).held = net.held) ∧
      (∀ taken, net.bind p = .ok taken →
        (p ≠ 0 → taken = p ∧ p ∉ net.held) ∧
        (start net settings rs).composition = some (compose rs) ∧
        (start net settings rs).tried = (compose rs).tried ∧
        (∀ o, (compose rs).result = .error o →
          (start net settings rs).result = .error o ∧ (start net settings rs).held = net.held) ∧
        (∀ server, (compose rs).result = .ok server →
          (start net settings rs).result = .ok ⟨taken, server⟩ ∧
            (start net settings rs).held = taken :: net.held))) ∧
    (∀ e, (start net settings rs).result = .error (.failed e) →
      (e.isBind = true ↔
        (∀ p taken, settings.port.toInt = UInt16.toNat p → net.bind p ≠ .ok taken) ∨
        ∃ k e', rs[k]? = some (.fails e') ∧ (∀ j < k, ∀ o, ¬Obstructed rs j o) ∧
          ((∃ address cause, e' = .bind address cause) ∨ ∃ port, e' = .invalidPort port))) := by
  refine ⟨fun h => ?_, fun p hp => ⟨Network.bind_of_mem_held, Network.bind_of_not_mem_held,
    fun cause hcause => ?_, fun taken htaken => ?_⟩, fun e he => ?_⟩
  · rw [start_of_listen_error (Network.listen_of_invalid h)]
    exact ⟨rfl, rfl, rfl⟩
  · have hlisten : net.listen settings.port = _ := Network.listen_eq hp
    rw [hcause] at hlisten
    rw [start_of_listen_error hlisten]
    exact ⟨rfl, rfl, rfl⟩
  · have hlisten : net.listen settings.port = _ := Network.listen_eq hp
    rw [htaken] at hlisten
    have hcomposition : (start net settings rs).composition = some (compose rs) := by
      cases hcompose : (compose rs).result with
      | ok server => rw [start_of_composed hlisten hcompose]
      | error o => rw [start_of_obstacle hlisten hcompose]
    refine ⟨fun hzero => Network.bind_eq_ok hzero htaken, hcomposition, ?_, fun o ho => ?_,
      fun server hserver => ?_⟩
    · rw [StartReport.tried, hcomposition]
      rfl
    · rw [start_of_obstacle hlisten ho]
      exact ⟨rfl, rfl⟩
    · rw [start_of_composed hlisten hserver]
      exact ⟨rfl, rfl⟩
  · rw [isBind_of_start he, Network.listen_fails_iff]

/-- Another program listens at port 8080. -/
def busyNetwork : Network := .ofHeld [8080]

/-- The second registration fails as if it could not listen. -/
def failingSecond : List Registration := [.named "first", .fails (.invalidPort (-1)), .named "late"]

/-- The port beside the one in use is granted, the second registration fails, and the port is free again.
The error is one of listening, although that succeeded. -/
theorem start_in_stages_failingSecond :
    (8081 : Int64).toInt = (8081 : UInt16).toNat ∧ busyNetwork.bind 8081 = .ok 8081 ∧
      (compose failingSecond).result = .error (.failed (.invalidPort (-1))) ∧
      (start busyNetwork ⟨8081⟩ failingSecond).result = .error (.failed (.invalidPort (-1))) ∧
      (start busyNetwork ⟨8081⟩ failingSecond).tried =
        [.named "first", .fails (.invalidPort (-1))] ∧
      (start busyNetwork ⟨8081⟩ failingSecond).held = [8080] ∧
      ∃ (k : Nat) (e : StartupError), failingSecond[k]? = some (.fails e) := by
  have hport : (8081 : Int64).toInt = (8081 : UInt16).toNat := by decide
  have hcompose : (compose failingSecond).result = .error (.failed (.invalidPort (-1))) := rfl
  obtain ⟨-, hstages, hisBind⟩ := start_in_stages busyNetwork ⟨8081⟩ failingSecond
  obtain ⟨-, hgranted, -, hbound⟩ := hstages 8081 hport
  have hbind : busyNetwork.bind 8081 = .ok 8081 := hgranted (by decide) (by decide)
  obtain ⟨-, -, htried, hobstacle, -⟩ := hbound 8081 hbind
  obtain ⟨hresult, hheld⟩ := hobstacle _ hcompose
  refine ⟨hport, hbind, hcompose, hresult, htried, hheld, ?_⟩
  rcases (hisBind _ hresult).mp rfl with hrefused | ⟨k, e, hk, -, -⟩
  · exact absurd hbind (hrefused 8081 8081 hport)
  · exact ⟨k, e, hk⟩

end Menagerie
