import Script.Settings
import Script.Session

/-!
Log records: what was read, which statements ran, and how a file came out.
-/

namespace Script

structure LogRecord where
  level : LogLevel
  logger : String
  message : String
  deriving DecidableEq, Repr

namespace LogRecord

def text (r : LogRecord) : String := s!"{r.level.name} {r.logger}: {r.message}"

def info (message : String) : LogRecord := ⟨.info, "gojo.main", message⟩

def ofEvent : Event → LogRecord
  | .statement line type => ⟨.debug, "gojo.interpreter", s!"line {line}: {type}"⟩
  | .loopDone line turns =>
    ⟨.debug, "gojo.interpreter", s!"line {line}: while loop finished after {turns} iterations"⟩

def ofReading (r : Program.Reading) : List LogRecord :=
  let tokens := r.tokens.toList.map fun n => ⟨.debug, "gojo.lexer", s!"lexed {n} tokens"⟩
  let statements :=
    match r.result with
    | .ok p => [⟨.debug, "gojo.parser", s!"parsed {p.length} top-level statements"⟩]
    | .error _ => []
  tokens ++ statements

def ofTrace (m : Machine) : List LogRecord := m.trace.toList.map ofEvent

def shown (level : LogLevel) (records : List LogRecord) : List String :=
  (records.filter (level.shows ·.level)).map text

end LogRecord

end Script
