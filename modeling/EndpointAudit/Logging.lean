/-!
# Logging

How much of the log reaches the console. Setting it up again replaces the console that is attached
and does not add a second one.
-/

namespace EndpointAudit

/-- The least serious records that are shown. -/
inductive LogLevel where
  | debug
  | warning
deriving DecidableEq, Repr

def LogLevel.name : LogLevel → String
  | .debug => "DEBUG"
  | .warning => "WARNING"

structure Logging where
  level : LogLevel := .warning
  /-- The number of consoles that are attached. -/
  consoles : Nat := 0
deriving DecidableEq, Repr

/-- Logging with one console attached in place of those before. -/
def Logging.configure (verbose : Bool) (_before : Logging) : Logging :=
  { level := if verbose then .debug else .warning, consoles := 1 }

end EndpointAudit
