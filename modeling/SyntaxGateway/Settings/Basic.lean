/-!
# Settings

What the gateway can be told: where it listens, where the syntax service is, and how long it waits
for it. A setting that is not given falls back to the next source, and in the end to a default.
-/

namespace SyntaxGateway

/-- Settings that may be given or left open. -/
structure Settings where
  host : Option String
  port : Option Nat
  serviceUrl : Option String
  timeoutSeconds : Option Nat
deriving DecidableEq, Repr

/-- Settings with all values decided. -/
structure ResolvedSettings where
  host : String
  port : Nat
  serviceUrl : String
  timeoutSeconds : Nat
deriving DecidableEq, Repr

namespace ResolvedSettings

/-- What holds where nothing is given. -/
def default : ResolvedSettings := ⟨"0.0.0.0", 8080, "http://127.0.0.1:9432", 30⟩

end ResolvedSettings

namespace Settings

def empty : Settings := ⟨none, none, none, none⟩

/-- Settings that spell out these values. -/
def ofResolved (r : ResolvedSettings) : Settings :=
  ⟨some r.host, some r.port, some r.serviceUrl, some r.timeoutSeconds⟩

/-- All defaults, spelled out. -/
def defaults : Settings := ofResolved .default

/-- `s` with what `other` gives on top of it. -/
def mergedWith (s other : Settings) : Settings where
  host := other.host <|> s.host
  port := other.port <|> s.port
  serviceUrl := other.serviceUrl <|> s.serviceUrl
  timeoutSeconds := other.timeoutSeconds <|> s.timeoutSeconds

/-- Decides all values: `overrides` win over what a file gives, and defaults fill the rest. -/
def resolve (file : Option Settings) (overrides : Settings) : ResolvedSettings :=
  let s := (file.getD empty).mergedWith overrides
  let d := ResolvedSettings.default
  ⟨s.host.getD d.host, s.port.getD d.port, s.serviceUrl.getD d.serviceUrl,
    s.timeoutSeconds.getD d.timeoutSeconds⟩

/-! ## Laws -/

theorem mergedWith_empty (s : Settings) : s.mergedWith empty = s := by
  cases s; simp [mergedWith, empty]

theorem resolve_none_empty : resolve none empty = .default := rfl

theorem resolve_none_ofResolved (r : ResolvedSettings) : resolve none (ofResolved r) = r := rfl

end Settings

end SyntaxGateway
