import Menagerie.Port
import Menagerie.Proofs.Decimal.Integer
import Menagerie.Proofs.Text.Octets

/-! A port is configured by a signed decimal numeral, in full and of any length. Text of any other kind, a number
beyond 64 bits and a value that is no text leave the default in place. -/

namespace Menagerie

open Decimal

namespace Port

variable {s : String} {fallback : UInt16} {port : Int64}

theorem toInt_ofDefault (p : UInt16) : (ofDefault p).toInt = p.toNat := by
  have hp : p.toNat < 65536 := p.toNat_lt
  rw [ofDefault, Int64.toInt_ofNat_of_lt (by omega)]

theorem resolve_of_isInteger (h : IsInteger s.toList port.toInt) : resolve (some s) fallback = port := by
  rw [resolve, int64?_eq_some_iff.mpr h, Option.getD_some]

theorem resolve_of_no_integer (h : ∀ n, IsInteger s.toList n → ¬Fits n) :
    resolve (some s) fallback = ofDefault fallback := by
  rw [resolve, int64?_eq_none_iff.mpr h, Option.getD_none]

end Port

theorem Text.Raw.text?_eq_some_iff {raw : Text.Raw} {s : String} :
    raw.text? = some s ↔ raw.octets = Text.octets s := by
  cases raw with
  | bytes bs => exact Text.text?_eq_some_iff
  | text t =>
      rw [text?, octets, Option.some.injEq]
      constructor
      · rintro rfl
        rfl
      · intro h
        have htext := Text.text?_octets t
        rw [h, Text.text?_octets] at htext
        exact (Option.some.inj htext).symm

/-- **A port is a signed numeral in full.** A numeral with at most one sign in front, of any length, stands for
the number that it denotes if that has 64 bits; every other text, and none, for the default. So all
spellings of a port are read as it. An environment configures the port as a look-up does that answers with the
text of its variable, and a variable whose octets are no text leaves the default in place. -/
theorem Port.resolve_numeral (fallback : UInt16) :
    (∀ (s : String) (n : Int), IsInteger s.toList n →
      -9223372036854775808 ≤ n → n ≤ 9223372036854775807 → (resolve (some s) fallback).toInt = n) ∧
    (∀ s : String, (∀ n, IsInteger s.toList n → n < -9223372036854775808 ∨ 9223372036854775807 < n) →
      (resolve (some s) fallback).toInt = fallback.toNat) ∧
    (resolve none fallback).toInt = fallback.toNat ∧
    (∀ (port : Int64) (s : String), Spells port s → resolve (some s) fallback = port) ∧
    (∀ port : Int64, Spells port (toString port.toInt)) ∧
    ∀ (env : Environment) (lookup : String → Option String),
      (env.get? "GRPC_PORT" = none → lookup "GRPC_PORT" = none →
        ServerSettings.ofEnvironment env = ServerSettings.ofLookup lookup) ∧
      (∀ raw s, env.get? "GRPC_PORT" = some raw → raw.octets = Text.octets s → lookup "GRPC_PORT" = some s →
        ServerSettings.ofEnvironment env = ServerSettings.ofLookup lookup) ∧
      ∀ raw, env.get? "GRPC_PORT" = some raw → (∀ s, raw.octets ≠ Text.octets s) →
        (ServerSettings.ofEnvironment env).port.toInt = 50051 := by
  have hsame : ∀ (env : Environment) (lookup : String → Option String),
      env.text? "GRPC_PORT" = lookup "GRPC_PORT" →
        ServerSettings.ofEnvironment env = ServerSettings.ofLookup lookup := by
    intro env lookup h
    rw [ServerSettings.ofEnvironment, ServerSettings.ofLookup, ServerSettings.ofLookup, variableName, h]
  refine ⟨fun s n hn hmin hmax => ?_, fun s hs => ?_, toInt_ofDefault fallback,
    fun port s h => resolve_of_isInteger h.isInteger, spells_toString, fun env lookup => ⟨?_, ?_, ?_⟩⟩
  · have hfits : (Int64.ofInt n).toInt = n := toInt_ofInt_of_fits ⟨hmin, hmax⟩
    rw [← hfits] at hn ⊢
    rw [resolve_of_isInteger hn, hfits]
  · have hnone : ∀ n, IsInteger s.toList n → ¬Fits n := by
      intro n hn hfits
      obtain ⟨hmin, hmax⟩ := hfits
      rcases hs n hn with h | h <;> omega
    rw [resolve_of_no_integer hnone, toInt_ofDefault]
  · intro henv hlookup
    exact hsame env lookup (by rw [Environment.text?, henv, hlookup, Option.bind_none])
  · intro raw s henv hoctets hlookup
    refine hsame env lookup ?_
    rw [Environment.text?, henv, hlookup, Option.bind_some, Text.Raw.text?_eq_some_iff.mpr hoctets]
  · intro raw henv hoctets
    have htext : raw.text? = none := by
      rw [Option.eq_none_iff_forall_ne_some]
      exact fun s hs => hoctets s (Text.Raw.text?_eq_some_iff.mp hs)
    have hunset : env.text? variableName = none := by
      rw [variableName, Environment.text?, henv, Option.bind_some, htext]
    rw [ServerSettings.ofEnvironment, ServerSettings.ofLookup, hunset]
    exact toInt_ofDefault default

/-- The least port of 64 bits behind zeros, a number one beyond the greatest, and octets that are no text. -/
theorem Port.resolve_numeral_edges :
    IsInteger "-0009223372036854775808".toList (-9223372036854775808) ∧
      (resolve (some "-0009223372036854775808") 7).toInt = -9223372036854775808 ∧
      IsInteger "+9223372036854775808".toList 9223372036854775808 ∧
      (resolve (some "+9223372036854775808") 7).toInt = 7 ∧
      (ServerSettings.ofEnvironment ⟨[("GRPC_PORT", .bytes [0x38, 0xff])]⟩).port.toInt = 50051 := by
  obtain ⟨hfits, hfalls, -, -, -, henv⟩ := resolve_numeral 7
  have hleast : IsInteger "-0009223372036854775808".toList (-9223372036854775808) :=
    integer?_eq_some_iff.mp (by decide +kernel)
  have hbeyond : integer? "+9223372036854775808".toList = some 9223372036854775808 := by decide +kernel
  obtain ⟨-, -, hbytes⟩ := henv ⟨[("GRPC_PORT", .bytes [0x38, 0xff])]⟩ fun _ => none
  refine ⟨hleast, hfits _ _ hleast (by decide) (by decide), integer?_eq_some_iff.mp hbeyond,
    hfalls _ fun n hn => ?_, hbytes _ rfl fun s hs => ?_⟩
  · rw [← integer?_eq_some_iff, hbeyond, Option.some.injEq] at hn
    exact .inr (hn ▸ by decide)
  · have hnone : Text.text? [0x38, 0xff] = none := by decide +kernel
    rw [Text.Raw.octets, ← Text.text?_eq_some_iff, hnone] at hs
    cases hs

end Menagerie
