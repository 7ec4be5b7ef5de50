import StyleEngine.Failure
import StyleEngine.Fields
import StyleEngine.Platform

/-!
# Settings

What an operator may set by name: the platform, the level of the log, and the host and port of the
service.  A name that is not set leaves the default.
-/

namespace StyleEngine

structure Settings where
  platform : String := Platform.native
  logLevel : String := "INFO"
  host : String := "0.0.0.0"
  port : Int := 8000

namespace Settings

def portOf (text : String) : Except Fault Int :=
  match PlainInteger.parse text with
  | .ok n => .ok n
  | .error .malformed => .error (.malformedInteger text)
  | .error (.tooLong digits) => .error (.integerTooLong digits)

/-- Reads the settings; only the port can be wrong. -/
def read (given : Fields String) : Except Fault Settings := do
  let defaults : Settings := {}
  let port ← match Fields.get? given "PORT" with
    | some text => portOf text
    | none => pure defaults.port
  pure
    { platform := ((Fields.get? given "PLATFORM").map Platform.canonical).getD defaults.platform
      logLevel := ((Fields.get? given "LOG_LEVEL").map fun s =>
        String.ofList (Text.upper s.toList)).getD defaults.logLevel
      host := (Fields.get? given "HOST").getD defaults.host
      port := port }

end Settings

end StyleEngine
