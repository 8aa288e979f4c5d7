import Mathlib.Data.PNat.Notation
import Polychrome.Config
import Polychrome.Library.FileSystem
import Polychrome.Library.RustSocketAddr

/-!
# The command line

This module embeds {lit}`parse` of the configuration.  Arguments are byte strings
that need not be UTF-8; what {lit}`parse` asks the system for is collected in
{lit}`Host`.

Main results:

- Definition {lit}`parse`: the command that the arguments stand for.
- Theorem {lit}`parseArgs_option` and its siblings: one turn of the loop for each kind
  of argument.
-/

namespace Polychrome

namespace CommandLine

open Posix Rust

/-- What the arguments are read against: the file system and the working directory,
{lit}`available_parallelism`, and how a failing {lit}`canonicalize` reads. -/
structure Host where
  files : FileSystem
  cwd : Path
  parallelism : Option ℕ+
  reason : Bytes → Bytes

/-- {lit}`enum Command` -/
inductive Command
  | help
  | version
  | serve (config : Config)
deriving DecidableEq, Repr

/-- The options that take a value. -/
inductive ValueOption
  | root
  | listen
  | workers
  | requestTimeout
  | c
  | d
deriving DecidableEq, Repr

/-- The word of an option. -/
def ValueOption.word : ValueOption → Bytes
  | .root => bytes "--root"
  | .listen => bytes "--listen"
  | .workers => bytes "--workers"
  | .requestTimeout => bytes "--request-timeout"
  | .c => bytes "-c"
  | .d => bytes "-d"

/-- {lit}`--help` and {lit}`-h` -/
def helpWords : List Bytes := [bytes "--help", bytes "-h"]

/-- {lit}`--version` and {lit}`-v` -/
def versionWords : List Bytes := [bytes "--version", bytes "-v"]

def noPreloadWord : Bytes := bytes "--no-preload"

/-- The option that an argument names. -/
def valueOption (arg : Bytes) : Option ValueOption :=
  [.root, .listen, .workers, .requestTimeout, .c, .d].find? fun o => o.word = arg

/-! ## Values -/

/-- {lit}`--listen` -/
def takeListen (value : Bytes) : Except Bytes Bytes :=
  match stripStart (bytes "unix:") value with
  | some path =>
      if path.head? = some slash then .ok value
      else .error (bytes "Unix socket path must be absolute")
  | none =>
      match parseSocketAddr value with
      | none => .error (bytes "--listen requires an IP:port or unix:/absolute/path")
      | some address =>
          if address.port = 0 then .error (bytes "--listen port must be nonzero")
          else .ok value

/-- A number from 1 to {lit}`most`, as {lit}`parse` and {lit}`filter` let it through. -/
def takeNumber (most : Nat) (message value : Bytes) : Except Bytes Nat :=
  match (parseUnsigned (2 ^ 64) value).filter fun n => 1 ≤ n ∧ n ≤ most with
  | some n => .ok n
  | none => .error message

/-- {lit}`--workers`, a {lit}`usize` of 64 bits. -/
def takeWorkers : Bytes → Except Bytes Nat :=
  takeNumber 4096 (bytes "--workers must be between 1 and 4096")

/-- {lit}`--request-timeout`, a {lit}`u64`. -/
def takeTimeout : Bytes → Except Bytes Nat :=
  takeNumber 86400 (bytes "--request-timeout must be between 1 and 86400 seconds")

/-- The settings that the manager keeps for itself. -/
def reservedKeys : List Bytes := [bytes "opcache.preload", bytes "opcache.preload_user"]

/-- {lit}`c.is_ascii_alphanumeric() || matches!(c, b'.' | b'_')` -/
def isKeyByte (b : UInt8) : Bool := isAsciiAlphanumeric b || b == 46 || b == 95

/-- {lit}`-d` -/
def takeDefine (value : Bytes) : Except Bytes Bytes :=
  match splitOnce 61 value with
  | none => .error (bytes "-d requires KEY=VALUE")
  | some (key, _) =>
      if key = [] ∨ key.all isKeyByte = false ∨ 10 ∈ value ∨ 13 ∈ value ∨ 0 ∈ value then
        .error (bytes "invalid PHP INI override")
      else if reservedKeys.any fun reserved => eqIgnoreAsciiCase key reserved then
        .error (bytes ("Polychrome manages opcache.preload and opcache.preload_user; " ++
          "use --no-preload to disable it"))
      else .ok value

/-- {lit}`into_string` for the value of an option. -/
def intoString (option : ValueOption) (value : Bytes) : Except Bytes Bytes :=
  if isUtf8 value then .ok value
  else .error (bytes "invalid UTF-8 value for " ++ option.word)

/-- The arm of the match on an option, its value at hand. -/
def takeValue (config : Config) (option : ValueOption) (value : Bytes) : Except Bytes Config :=
  match option with
  | .root => .ok { config with root := value }
  | .c => .ok { config with ini := some value }
  | .listen => do
      let listen ← takeListen (← intoString .listen value)
      return { config with listen := listen }
  | .workers => do
      let workers ← takeWorkers (← intoString .workers value)
      return { config with workers := workers }
  | .requestTimeout => do
      let timeout ← takeTimeout (← intoString .requestTimeout value)
      return { config with timeout := timeout }
  | .d => do
      let define ← takeDefine (← intoString .d value)
      return { config with defines := config.defines ++ [define] }

/-! ## Arguments -/

/-- {lit}`available_parallelism().map_or(1, usize::from)` -/
def Host.defaultWorkers (host : Host) : Nat := host.parallelism.elim 1 PNat.val

/-- {lit}`canonicalize` -/
def Host.canonicalize (host : Host) (p : Bytes) : Except Bytes Bytes :=
  match host.files.realpath host.cwd p with
  | some q => .ok (text q)
  | none => .error (host.reason p)

/-- {lit}`is_dir` -/
def Host.isDir (host : Host) (p : Bytes) : Bool :=
  match host.files.stat host.cwd p with
  | some (.directory _) => true
  | _ => false

/-- The settings before the first argument. -/
def defaults (host : Host) : Config where
  root := bytes "."
  listen := bytes "127.0.0.1:9000"
  workers := host.defaultWorkers
  timeout := 30
  preload := true
  ini := none
  defines := []

/-- The paths are looked up when all arguments have been read. -/
def finish (host : Host) (config : Config) : Except Bytes Command := do
  let root ← (host.canonicalize config.root).mapError fun e => bytes "application root: " ++ e
  if host.isDir root = false then
    throw (bytes "application root must be a directory")
  match config.ini with
  | none => return .serve { config with root := root }
  | some path =>
      let ini ← (host.canonicalize path).mapError fun e => bytes "PHP INI path: " ++ e
      return .serve { config with root := root, ini := some ini }

/-- The loop over the arguments. -/
def parseArgs (host : Host) (config : Config) : List Bytes → Except Bytes Command
  | [] => finish host config
  | arg :: args =>
      if isUtf8 arg = false then .error (bytes "options must be valid UTF-8")
      else if arg ∈ helpWords then .ok .help
      else if arg ∈ versionWords then .ok .version
      else if arg = noPreloadWord then parseArgs host { config with preload := false } args
      else
        match valueOption arg with
        | none => .error (bytes "unknown option: " ++ arg)
        | some option =>
            match args with
            | [] => .error (bytes "missing value for " ++ arg)
            | value :: args => (takeValue config option value).bind fun config =>
                parseArgs host config args

/-- {lit}`parse` -/
def parse (host : Host) (args : List Bytes) : Except Bytes Command :=
  parseArgs host (defaults host) args

/-! ## One turn of the loop -/

/-- An option with a value is known by its word. -/
theorem valueOption_eq_some_iff {arg : Bytes} {option : ValueOption} :
    valueOption arg = some option ↔ arg = option.word := by
  constructor
  · intro h
    simpa [eq_comm] using List.find?_some h
  · rintro rfl
    cases option <;> decide

/-- The words of the options are text. -/
theorem isUtf8_word (option : ValueOption) : isUtf8 option.word = true := by
  cases option <;> decide

/-- The word of an option is no flag. -/
theorem word_notMem_flags (option : ValueOption) :
    option.word ∉ helpWords ∧ option.word ∉ versionWords ∧ option.word ≠ noPreloadWord := by
  cases option <;> decide

section Turns

variable (host : Host) (config : Config) (args : List Bytes)

/-- A word for help ends the parsing. -/
theorem parseArgs_help {arg : Bytes} (h : arg ∈ helpWords) :
    parseArgs host config (arg :: args) = .ok .help := by
  have hutf8 : isUtf8 arg = true := by
    have hall : ∀ word ∈ helpWords, isUtf8 word = true := by decide
    exact hall arg h
  simp [parseArgs, hutf8, h]

/-- A word for the version ends the parsing. -/
theorem parseArgs_version {arg : Bytes} (h : arg ∈ versionWords) :
    parseArgs host config (arg :: args) = .ok .version := by
  have hall : ∀ word ∈ versionWords, isUtf8 word = true ∧ word ∉ helpWords := by decide
  rcases hall arg h with ⟨hutf8, hhelp⟩
  simp [parseArgs, hutf8, hhelp, h]

/-- The flag turns preloading off. -/
theorem parseArgs_noPreload :
    parseArgs host config (noPreloadWord :: args) =
      parseArgs host { config with preload := false } args := by
  have hflag : isUtf8 noPreloadWord = true ∧ noPreloadWord ∉ helpWords ∧
      noPreloadWord ∉ versionWords := by decide
  simp [parseArgs, hflag]

/-- An option at the end misses its value. -/
theorem parseArgs_missing (option : ValueOption) :
    parseArgs host config [option.word] =
      .error (bytes "missing value for " ++ option.word) := by
  rcases word_notMem_flags option with ⟨hhelp, hversion, hflag⟩
  simp [parseArgs, isUtf8_word, hhelp, hversion, hflag,
    valueOption_eq_some_iff.mpr (Eq.refl option.word)]

/-- An option takes the argument behind it. -/
theorem parseArgs_option (option : ValueOption) (value : Bytes) :
    parseArgs host config (option.word :: value :: args) =
      (takeValue config option value).bind fun config => parseArgs host config args := by
  rcases word_notMem_flags option with ⟨hhelp, hversion, hflag⟩
  simp [parseArgs, isUtf8_word, hhelp, hversion, hflag,
    valueOption_eq_some_iff.mpr (Eq.refl option.word)]

end Turns

end CommandLine

end Polychrome
