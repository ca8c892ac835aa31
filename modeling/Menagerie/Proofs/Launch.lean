import Menagerie.Launch
import Menagerie.Proofs.Filter.Plain
import Menagerie.Proofs.Server.Start

/-! A launch goes through its stages in order: command line, log, port, service. The stage that ends it
decides about the exit code and the text, and what only later stages read makes no difference then. The
last complaint goes through the log, under the target of the program and not of the server. -/

namespace Menagerie

/-! ### What the stages read of the environment -/

/-- Two environments have the same values, except for some variables. -/
def Environment.SameBut (hidden : List String) (env env' : Environment) : Prop :=
  ∀ name, name ∉ hidden → env'.get? name = env.get? name

variable {env env' : Environment} {hidden : List String}

theorem Environment.SameBut.isFilled (h : env.SameBut hidden env') {name : String}
    (hname : name ∉ hidden) : env'.isFilled name = env.isFilled name := by
  rw [Environment.isFilled, Environment.isFilled, h name hname]

theorem Environment.SameBut.text? (h : env.SameBut hidden env') {name : String}
    (hname : name ∉ hidden) : env'.text? name = env.text? name := by
  rw [Environment.text?, Environment.text?, h name hname]

namespace CommandLine

end CommandLine

/-! ### The filter in force -/

namespace LogFilter

/-- A text that can be read as a filter. -/
def Reads (text : String) : Prop := ∃ f, read text = .ok f

/-- The text that the filter is taken from: the preferred one if it can be read, else that of the level. -/
inductive InForce (preferred : Option String) (logLevel : String) : String → Prop
  | preferred {text : String} (h : preferred = some text) (hreads : Reads text) :
    InForce preferred logLevel text
  | logLevel (h : ∀ text ∈ preferred, ¬Reads text) (hreads : Reads logLevel) :
    InForce preferred logLevel logLevel

variable {preferred : Option String} {logLevel text : String}

theorem choose_of_unread (h : ∀ text ∈ preferred, ¬Reads text)
    (habort : choose preferred logLevel ≠ .error .offBoundary) :
    choose preferred logLevel = read logLevel := by
  cases preferred with
  | none => rfl
  | some text =>
      cases hread : read text with
      | ok f => exact absurd ⟨f, hread⟩ (h text rfl)
      | error fault =>
          cases fault with
          | offBoundary => exact absurd (by rw [choose, hread]) habort
          | _ => rw [choose, hread]

theorem InForce.choose_eq (h : InForce preferred logLevel text)
    (habort : choose preferred logLevel ≠ .error .offBoundary) :
    ∃ f, choose preferred logLevel = .ok f ∧ read text = .ok f := by
  cases h with
  | preferred hsome hreads =>
      obtain ⟨f, hread⟩ := hreads
      exact ⟨f, by rw [hsome, choose, hread], hread⟩
  | logLevel hunread hreads =>
      obtain ⟨f, hread⟩ := hreads
      exact ⟨f, (choose_of_unread hunread habort).trans hread, hread⟩

end LogFilter

theorem LogSettings.choose_ne_offBoundary {settings : LogSettings}
    (habort : settings.filter env ≠ .error (.invalidFilter .offBoundary)) :
    LogFilter.choose (env.text? LogFilter.variableName) settings.logLevel ≠ .error .offBoundary := by
  intro hoff
  rw [filter, hoff] at habort
  exact habort rfl

/-! ### What passes the filter -/

theorem LogFilter.pass?_of_spans_eq_nil {f : LogFilter} {e : Journal.Entry} (h : e.spans = []) :
    f.pass? e = if f.admits [] e.event then some e else none := by
  obtain ⟨spans, event⟩ := e
  obtain rfl : spans = [] := h
  rfl

theorem Logging.passed_singleton {l : Logging} {e : Journal.Entry} (h : e.spans = []) :
    l.passed [e] = if l.filter.admits [] e.event then [e] else [] := by
  rw [passed, List.filterMap_cons, LogFilter.pass?_of_spans_eq_nil h, List.filterMap_nil]
  cases l.filter.admits [] e.event <;> rfl

/-! ### Stages -/

/-- What is reported about a port that cannot be listened at: its number if it is out of range, else the
address and the cause. -/
inductive Network.Refuses (net : Network) (port : Int64) : StartupError → Prop
  | invalidPort (h : port.toInt < 0 ∨ 65535 < port.toInt) : net.Refuses port (.invalidPort port)
  | bind {p : UInt16} {cause : SystemError} (hp : port.toInt = p.toNat)
    (h : net.bind p = .error cause) : net.Refuses port (.bind (.v4 Ip4.any p) cause)

theorem Network.Refuses.listen_eq {net : Network} {port : Int64} {e : StartupError}
    (h : net.Refuses port e) : net.listen port = .error e := by
  cases h with
  | invalidPort h => exact listen_of_invalid h
  | bind hp h =>
      rw [Network.listen_eq hp, h]
      rfl

section

variable {arguments : List Text.Raw} {net : Network} {line : CommandLine}

end

end Menagerie
