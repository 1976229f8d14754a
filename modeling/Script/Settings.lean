import Script.Text.Integer
import Script.Text.Quoted

/-!
Settings from the environment.
-/

namespace Script

inductive LogLevel
  | warning | info | debug
  deriving DecidableEq, Repr

namespace LogLevel

def name : LogLevel → String
  | .warning => "WARNING"
  | .info => "INFO"
  | .debug => "DEBUG"

def shows : LogLevel → LogLevel → Bool
  | .debug, _ => true
  | .info, record => record ≠ .debug
  | .warning, record => record = .warning

end LogLevel

structure Settings where
  inputFile : Option String
  verbose : Bool
  megaVerbose : Bool
  repl : Bool
  /-- Zero stands for no limit. -/
  maxTurns : Nat
  deriving DecidableEq, Repr

inductive SettingError
  | notInteger (text : String)
  | negative (value : Int)
  deriving DecidableEq, Repr

def SettingError.message : SettingError → String
  | .notInteger text => s!"GOJO_MAX_ITERATIONS must be an integer, got {Text.quote text}"
  | .negative value => s!"GOJO_MAX_ITERATIONS must not be negative, got {value}"

namespace Settings

def logLevel (c : Settings) : LogLevel :=
  if c.megaVerbose then .debug else if c.verbose then .info else .warning

/-- No letter past ASCII has a lower case of `true`. -/
def isTrue (setting : Option String) : Bool :=
  (Text.trim (setting.getD "").toList).map Char.toLower = "true".toList

def turns? (setting : Option String) : Except SettingError Nat :=
  let text := String.ofList (Text.trim (setting.getD "").toList)
  if text = "" then .ok 0
  else
    match Text.integer? text with
    | none => .error (.notInteger text)
    | some n => if n < 0 then .error (.negative n) else .ok n.toNat

def names : List String :=
  ["GOJO_INPUT_FILE", "GOJO_VERBOSE", "GOJO_MEGA_VERBOSE", "GOJO_REPL_MODE",
    "GOJO_MAX_ITERATIONS"]

def load (environ : String → Option String) : Except SettingError Settings := do
  let maxTurns ← turns? (environ "GOJO_MAX_ITERATIONS")
  return {
    inputFile := (environ "GOJO_INPUT_FILE").filter (· ≠ "")
    verbose := isTrue (environ "GOJO_VERBOSE")
    megaVerbose := isTrue (environ "GOJO_MEGA_VERBOSE")
    repl := isTrue (environ "GOJO_REPL_MODE")
    maxTurns }

end Settings

end Script
