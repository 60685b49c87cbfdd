import HighSpeed.Log.Format
import HighSpeed.Lib.Run

/-!
The logger of `log/Log.hpp`: `Logger::log`, its two sinks, and the `GlobalLogger` singleton
behind the `LOG_*` macros.
-/

namespace HighSpeed

namespace Log

inductive LogLevel where
  | DEBUG
  | RELEASE
  | INFO
  | WARN
  | ERROR
  | FATAL
  deriving DecidableEq, Repr

def LogLevel.toNat : LogLevel → Nat
  | .DEBUG => 0
  | .RELEASE => 1
  | .INFO => 2
  | .WARN => 3
  | .ERROR => 4
  | .FATAL => 5

def levelToString : LogLevel → List Char
  | .DEBUG => "DEBUG".toList
  | .RELEASE => "RELEASE".toList
  | .INFO => "INFO".toList
  | .WARN => "WARN".toList
  | .ERROR => "ERROR".toList
  | .FATAL => "FATAL".toList

/-- The line `Logger::log` builds in `log_ss`: the level, the time `put_time` printed, the file,
the line number as `int`, and the formatted message, ended by `std::endl`. -/
def Logger.line (level : LogLevel) (time file : List Char) (line : Int) (message : List Char) :
    List Char :=
  "[".toList ++ levelToString level ++ "]".toList ++ "[".toList ++ time ++ "]".toList ++
    "[".toList ++ file ++ "]".toList ++ "[".toList ++
    Format.insertIntegral Format.StreamFlags.fresh line 32 ++ "] : ".toList ++ message ++ ['\n']

/-- `Logger::log` up to `output`: nothing below `min_level_`, the exception of `format` when it
throws, the line otherwise. `time` is what the clock read. -/
def Logger.log (minLevel level : LogLevel) (file : List Char) (line : Int) (formatStr : List Char)
    (args : List Format.FormatArg) (time : List Char) : Except String (Option (List Char)) :=
  if level.toNat < minLevel.toNat then .ok none
  else
    match Format.vformat formatStr args with
    | .error message => .error message
    | .ok message => .ok (some (Logger.line level time file line message))

/-- `StdoutLogger`: a `Logger` whose `output` writes to `std::cout`. Its `format_` is never read. -/
structure StdoutLogger where
  minLevel : LogLevel
  deriving DecidableEq, Repr

structure FileLogger where
  minLevel : LogLevel
  filePath : List Char
  deriving DecidableEq, Repr

inductive Sink where
  | stdout
  | file (path : List Char)
  deriving DecidableEq, Repr

inductive Choice where
  | STDOUT
  | FILE
  | NONE
  deriving DecidableEq, Repr

structure GlobalLogger where
  logger : Option StdoutLogger
  fileLogger : Option FileLogger
  choice : Choice
  filePath : List Char
  minLevel : LogLevel
  deriving DecidableEq, Repr

namespace GlobalLogger

def defaults : GlobalLogger := ⟨none, none, .STDOUT, "./log.txt".toList, .DEBUG⟩

def createStdout (s : GlobalLogger) : GlobalLogger :=
  { s with logger := some ⟨s.minLevel⟩ }

def createFile (s : GlobalLogger) : GlobalLogger :=
  { s with fileLogger := some ⟨s.minLevel, s.filePath⟩ }

def construct (s : GlobalLogger) : GlobalLogger :=
  let s := if s.choice = .STDOUT ∧ s.logger = none then s.createStdout else s
  if s.choice = .FILE ∧ s.fileLogger = none then s.createFile else s

/-- The object the first `instance()` makes (`instance` is a keyword of Lean). -/
def singleton : GlobalLogger := defaults.construct

section
/-- `flush()`: recreates the logger of the current choice from the current settings. -/
@[local simp]
def flush (s : GlobalLogger) : GlobalLogger :=
  match s.choice with
  | .STDOUT => s.createStdout
  | .FILE => s.createFile
  | .NONE => s
end

/-- The setters: nothing when the setting is already the value, otherwise write it and
`flush()`. -/
def setting {α : Type} [DecidableEq α] (field : GlobalLogger → α)
    (write : GlobalLogger → α → GlobalLogger) (s : GlobalLogger) (value : α) : GlobalLogger :=
  if field s = value then s else (write s value).flush

def setLogLevel (s : GlobalLogger) (level : LogLevel) : GlobalLogger :=
  setting (·.minLevel) (fun s level => { s with minLevel := level }) s level

def setLogFile (s : GlobalLogger) (filePath : List Char) : GlobalLogger :=
  setting (·.filePath) (fun s filePath => { s with filePath := filePath }) s filePath

def setLogChoice (s : GlobalLogger) (choice : Choice) : GlobalLogger :=
  setting (·.choice) (fun s choice => { s with choice := choice }) s choice

def setFilePath (s : GlobalLogger) (filePath : List Char) : GlobalLogger :=
  setting (·.filePath) (fun s filePath => { s with filePath := filePath }) s filePath

def emit (s : GlobalLogger) (level : LogLevel) (fmt file : List Char) (line : Int)
    (args : List Format.FormatArg) (time : List Char) :
    Option (Except String (Option (Sink × List Char))) :=
  match s.choice with
  | .STDOUT =>
      s.logger.map fun logger =>
        (Logger.log logger.minLevel level file line fmt args time).map (·.map (.stdout, ·))
  | .FILE =>
      s.fileLogger.map fun logger =>
        (Logger.log logger.minLevel level file line fmt args time).map
          (·.map (.file logger.filePath, ·))
  | .NONE => some (.ok none)

def debug (s : GlobalLogger) := s.emit .DEBUG
def release (s : GlobalLogger) := s.emit .RELEASE
def info (s : GlobalLogger) := s.emit .INFO
def warn (s : GlobalLogger) := s.emit .WARN
def error (s : GlobalLogger) := s.emit .ERROR
def fatal (s : GlobalLogger) := s.emit .FATAL

inductive Setting where
  | setLogLevel (level : LogLevel)
  | setLogFile (filePath : List Char)
  | setLogChoice (choice : Choice)
  | setFilePath (filePath : List Char)
  deriving DecidableEq, Repr

def apply (s : GlobalLogger) : Setting → GlobalLogger
  | .setLogLevel level => s.setLogLevel level
  | .setLogFile filePath => s.setLogFile filePath
  | .setLogChoice choice => s.setLogChoice choice
  | .setFilePath filePath => s.setFilePath filePath

end GlobalLogger

/-! ## What the settings alone say -/

structure LogConfig where
  choice : Choice
  filePath : List Char
  minLevel : LogLevel
  deriving DecidableEq, Repr

namespace LogConfig

def initial : LogConfig := ⟨.STDOUT, "./log.txt".toList, .DEBUG⟩

def apply (config : LogConfig) : GlobalLogger.Setting → LogConfig
  | .setLogLevel level => { config with minLevel := level }
  | .setLogFile filePath => { config with filePath := filePath }
  | .setLogChoice choice => { config with choice := choice }
  | .setFilePath filePath => { config with filePath := filePath }

/-- A log call under these settings: nothing for `NONE`; otherwise `Logger::log` at the current
minimum level, on standard output or on the current file. -/
def emit (config : LogConfig) (level : LogLevel) (fmt file : List Char) (line : Int)
    (args : List Format.FormatArg) (time : List Char) : Except String (Option (Sink × List Char)) :=
  match config.choice with
  | .STDOUT => (Logger.log config.minLevel level file line fmt args time).map (·.map (.stdout, ·))
  | .FILE =>
      (Logger.log config.minLevel level file line fmt args time).map
        (·.map (.file config.filePath, ·))
  | .NONE => .ok none

end LogConfig

/-! ## The cached loggers follow the settings -/

namespace GlobalLogger

def config (s : GlobalLogger) : LogConfig := ⟨s.choice, s.filePath, s.minLevel⟩

structure Synced (s : GlobalLogger) : Prop where
  stdout : s.choice = .STDOUT → s.logger = some ⟨s.minLevel⟩
  file : s.choice = .FILE → s.fileLogger = some ⟨s.minLevel, s.filePath⟩

theorem synced_singleton : Synced singleton where
  stdout _ := rfl
  file chosen := absurd chosen (by decide)

theorem config_singleton : singleton.config = LogConfig.initial := rfl

theorem synced_flush (s : GlobalLogger) : Synced s.flush := by
  cases chosen : s.choice with
  | STDOUT =>
      simp only [flush, chosen]
      exact ⟨fun _ => rfl, fun file => absurd (chosen.symm.trans file) (by decide)⟩
  | FILE =>
      simp only [flush, chosen]
      exact ⟨fun stdout => absurd (chosen.symm.trans stdout) (by decide), fun _ => rfl⟩
  | NONE =>
      simp only [flush, chosen]
      exact ⟨fun stdout => absurd (chosen.symm.trans stdout) (by decide),
        fun file => absurd (chosen.symm.trans file) (by decide)⟩

theorem config_flush (s : GlobalLogger) : s.flush.config = s.config := by
  unfold flush
  split <;> rfl

theorem setting_cases {α : Type} [DecidableEq α] (field : GlobalLogger → α)
    (write : GlobalLogger → α → GlobalLogger) (s : GlobalLogger) (value : α) :
    (field s = value ∧ setting field write s value = s) ∨
      setting field write s value = (write s value).flush := by
  unfold setting
  split
  · rename_i same
    exact .inl ⟨same, rfl⟩
  · exact .inr rfl

theorem setting_refines {α : Type} [DecidableEq α] {field : GlobalLogger → α}
    {write : GlobalLogger → α → GlobalLogger} {target : LogConfig} {s : GlobalLogger}
    (synced : Synced s) (value : α) (writes : (write s value).config = target)
    (already : field s = value → target = s.config) :
    Synced (setting field write s value) ∧ (setting field write s value).config = target := by
  rcases setting_cases field write s value with ⟨same, kept⟩ | written
  · rw [kept]
    exact ⟨synced, (already same).symm⟩
  · rw [written]
    exact ⟨synced_flush _, by rw [config_flush, writes]⟩

theorem apply_refines {s : GlobalLogger} (synced : Synced s) (call : Setting) :
    Synced (s.apply call) ∧ (s.apply call).config = s.config.apply call := by
  cases call with
  | setLogLevel level =>
      simp only [apply, setLogLevel]
      refine setting_refines synced level ?_ ?_
      · rfl
      · intro same
        rw [← same]
        rfl
  | setLogFile filePath =>
      simp only [apply, setLogFile]
      refine setting_refines synced filePath ?_ ?_
      · rfl
      · intro same
        rw [← same]
        rfl
  | setLogChoice choice =>
      simp only [apply, setLogChoice]
      refine setting_refines synced choice ?_ ?_
      · rfl
      · intro same
        rw [← same]
        rfl
  | setFilePath filePath =>
      simp only [apply, setFilePath]
      refine setting_refines synced filePath ?_ ?_
      · rfl
      · intro same
        rw [← same]
        rfl

theorem emit_of_synced {s : GlobalLogger} (synced : Synced s) (level : LogLevel)
    (fmt file : List Char) (line : Int) (args : List Format.FormatArg) (time : List Char) :
    s.emit level fmt file line args time = some (s.config.emit level fmt file line args time) := by
  cases chosen : s.choice with
  | STDOUT => simp [emit, LogConfig.emit, config, chosen, synced.stdout chosen]
  | FILE => simp [emit, LogConfig.emit, config, chosen, synced.file chosen]
  | NONE => simp [emit, LogConfig.emit, config, chosen]

/-- Over every sequence of `setLogLevel`, `setLogFile`, `setLogChoice` and `setFilePath` calls
from `instance()`, every call of `debug` ... `fatal` goes through a logger that exists and does
what the settings made so far say: nothing under `NONE` or below the last level set, and
otherwise the line of `Logger::log` on standard output or on the file last set. -/
theorem emit_refines (settings : List Setting) (level : LogLevel) (fmt file : List Char)
    (line : Int) (args : List Format.FormatArg) (time : List Char) :
    (settings.foldl apply singleton).emit level fmt file line args time =
      some ((settings.foldl LogConfig.apply LogConfig.initial).emit level fmt file line args
        time) := by
  have related := Run.simulate (fun s config => Synced s ∧ s.config = config) apply
    LogConfig.apply (fun s config call related => by
      obtain ⟨synced, same⟩ := related
      obtain ⟨stillSynced, moved⟩ := apply_refines synced call
      exact ⟨stillSynced, by rw [moved, same]⟩)
    settings singleton LogConfig.initial ⟨synced_singleton, config_singleton⟩
  obtain ⟨synced, same⟩ := related
  rw [emit_of_synced synced, same]

end GlobalLogger

end Log

end HighSpeed
