import DeviceCatalog.Options
import DeviceCatalog.Path

/-!
# Command line arguments

A command line is flags of the program, the name of a command, and the command's own arguments: three positional ones and options
before, between or behind them. An option has its value behind an equals sign or in the next argument, and may be given once; a lone
double dash makes everything behind it positional. Two options fall back on a variable of the environment.
-/

namespace DeviceCatalog.CommandLine

/-- What a command does with the artifacts. -/
inductive Verb where
  | generate
  | check
deriving DecidableEq

/-- How much is reported. -/
inductive Verbosity where
  | quiet
  | normal
  | detailed
deriving DecidableEq

/-- The arguments of a command. -/
structure Command where
  verb : Verb
  verbosity : Verbosity
  catalogs : String
  options : Options
  paths : OutputPaths

/-- What a command line asks for. -/
inductive Request where
  | run (command : Command)
  | help

/-- The environment. -/
abbrev Environment := List (String × String)

/-! ## Words -/

/-- The options of a command that have a value. -/
inductive Setting where
  | timestampBytes
  | pollResolution
  | structType
  | structResolution
  | structName
  | symbolTable
  | decoderHeader
  | decoderSource
  | moduleName
  | includeMetadata
deriving DecidableEq

/-- The options of a command that have none. -/
inductive Flag where
  | noDecoding
  | noDeviceInfo
  | script
  | includeUnits
  | includeRanges
deriving DecidableEq

/-- The setting that a word names. -/
def Setting.ofWord? : String → Option Setting
  | "pollresptsbytes" => some .timestampBytes
  | "pollresptsresus" => some .pollResolution
  | "decodestructtsctype" => some .structType
  | "decodestructtsresus" => some .structResolution
  | "decodestructtsvar" => some .structName
  | "mp-qstr-header" => some .symbolTable
  | "mp-decoder-header" => some .decoderHeader
  | "mp-decoder-source" => some .decoderSource
  | "mp-module-name" => some .moduleName
  | "mp-include-metadata" => some .includeMetadata
  | _ => none

/-- The flag that a word names. -/
def Flag.ofWord? : String → Option Flag
  | "no-gen-decode" => some .noDecoding
  | "no-inc-dev-json" => some .noDeviceInfo
  | "gen-micropython" => some .script
  | "mp-include-units" => some .includeUnits
  | "mp-include-ranges" => some .includeRanges
  | _ => none

/-- The variable that a setting falls back on. -/
def Setting.variable? : Setting → Option String
  | .timestampBytes => some "DEVTYPES_POLL_TS_BYTES"
  | .pollResolution => some "DEVTYPES_POLL_TS_RES_US"
  | _ => none

/-- One argument, as its first characters tell. -/
inductive Argument where
  | positional (text : String)
  | separator
  | long (word : String) (value : Option String)
  | short (letters : List Char)

/-- The argument that a text is. A single dash is positional. -/
def Argument.ofText (text : String) : Argument :=
  match text.toList with
  | ['-', '-'] => .separator
  | '-' :: '-' :: rest =>
    match Text.cutFirst? '=' rest with
    | some (word, value) => .long (String.ofList word) (some (String.ofList value))
    | none => .long (String.ofList rest) none
  | '-' :: c :: rest => .short (c :: rest)
  | _ => .positional text

/-! ## Reading -/

/-- How much was asked for on one level of the command line. -/
structure Loudness where
  verbose : Nat := 0
  quiet : Bool := false

/-- What has been read of the arguments of one level. -/
structure Given where
  loudness : Loudness := {}
  positional : List String := []
  flags : List Flag := []
  settings : List (Setting × String) := []
  help : Bool := false

/-- Either level knows the words for how much is reported; what is repeated although it must not be is refused. -/
def Given.loudnessWord? (g : Given) : String → Option Given
  | "verbose" => some { g with loudness := { g.loudness with verbose := g.loudness.verbose + 1 } }
  | "quiet" => if g.loudness.quiet then none else some { g with loudness := { g.loudness with quiet := true } }
  | "help" => some { g with help := true }
  | _ => none

/-- One letter behind a single dash. -/
def Given.letter? (g : Given) : Char → Option Given
  | 'v' => g.loudnessWord? "verbose"
  | 'q' => g.loudnessWord? "quiet"
  | 'h' => g.loudnessWord? "help"
  | _ => none

/-- A flag, which may be given once. -/
def Given.flag? (g : Given) (f : Flag) : Option Given :=
  if f ∈ g.flags then none else some { g with flags := f :: g.flags }

/-- A setting with its value, which may be given once. -/
def Given.setting? (g : Given) (s : Setting) (value : String) : Option Given :=
  if s ∈ g.settings.map Prod.fst then none else some { g with settings := (s, value) :: g.settings }

/-- The arguments of a command. Behind a request for help nothing counts any more. -/
def Given.read? (g : Given) : List String → Option Given
  | [] => some g
  | text :: rest =>
    if g.help then some g
    else
      match Argument.ofText text with
      | .separator => some { g with positional := g.positional ++ rest }
      | .positional p => Given.read? { g with positional := g.positional ++ [p] } rest
      | .short letters => do
        let g ← letters.foldlM (fun (g : Given) c => if g.help then some g else g.letter? c) g
        Given.read? g rest
      | .long word none =>
        match Setting.ofWord? word with
        | some s =>
          match rest with
          | [] => none
          | value :: rest =>
            match Argument.ofText value with
            | .positional v => do
              let g ← g.setting? s v
              Given.read? g rest
            | _ => none
        | none => do
          let g ← match Flag.ofWord? word with
            | some f => g.flag? f
            | none => g.loudnessWord? word
          Given.read? g rest
      | .long word (some value) => do
        let s ← Setting.ofWord? word
        let g ← g.setting? s value
        Given.read? g rest

/-- The flags of the program in front of the command, the command's name and its arguments. -/
def readFront? (g : Given) : List String → Option (Given × Option (String × List String))
  | [] => some (g, none)
  | text :: rest =>
    if g.help then some (g, none)
    else
      match Argument.ofText text with
      | .positional name => some (g, some (name, rest))
      | .short letters => do
        let g ← letters.foldlM (fun (g : Given) c => if g.help then some g else g.letter? c) g
        readFront? g rest
      | .long word none => do
        let g ← g.loudnessWord? word
        readFront? g rest
      | _ => none

/-! ## Values -/

/-- A text that stands for an unsigned number of 32 bits: decimal digits behind an optional sign. -/
def parseWord? (text : String) : Option UInt32 := do
  let (minus, digits) :=
    match text.toList with
    | '-' :: r => (true, r)
    | '+' :: r => (false, r)
    | r => (false, r)
  if digits.isEmpty || !digits.all Char.isDigit then none
  else
    let n := digits.foldl (fun n c => 10 * n + (c.toNat - '0'.toNat)) 0
    if n < UInt32.size ∧ (minus → n = 0) then some (UInt32.ofNat n) else none

/-- A text that stands for a truth value. -/
def parseTruth? : String → Option Bool
  | "true" => some true
  | "false" => some false
  | _ => none

/-- A text that stands for a path, which may not be empty. -/
def parsePath? (text : String) : Option Path :=
  if text.isEmpty then none else some ⟨text⟩

/-- The text of a setting: as given, else from the environment. -/
def Given.value? (g : Given) (env : Environment) (s : Setting) : Option String :=
  match g.settings.lookup s with
  | some v => some v
  | none => s.variable?.bind fun name => env.lookup name

/-- The value of a setting, or the default when it is not given; none when it does not parse. -/
def Given.parsed? {α : Type} (g : Given) (env : Environment) (s : Setting) (parse? : String → Option α)
    (default : α) : Option α :=
  match g.value? env s with
  | some text => parse? text
  | none => some default

/-- The options that the arguments stand for. -/
def Given.options? (g : Given) (env : Environment) : Option Options := do
  let timestampBytes ← g.parsed? env .timestampBytes parseWord? 2
  let pollResolution ← g.parsed? env .pollResolution parseWord? 1000
  let structType ← g.parsed? env .structType some "uint32_t"
  let structResolution ← g.parsed? env .structResolution parseWord? 1000
  let structName ← g.parsed? env .structName some ""
  let moduleName ← g.parsed? env .moduleName some "device"
  let includeMetadata ← g.parsed? env .includeMetadata parseTruth? true
  let script : ScriptOptions := {
    moduleName := moduleName
    includeMetadata := includeMetadata
    includeUnits := .includeUnits ∈ g.flags
    includeRanges := .includeRanges ∈ g.flags
  }
  some {
    decoding := .noDecoding ∉ g.flags
    includeDeviceInfo := .noDeviceInfo ∉ g.flags
    timestampBytes := timestampBytes
    pollResolution := pollResolution
    structTimestampType := structType
    structResolution := structResolution
    structTimestampName := structName
    script := if .script ∈ g.flags then some script else none
  }

/-- The catalogs and the output paths that the arguments stand for. -/
def Given.paths? (g : Given) (env : Environment) : Option (String × OutputPaths) := do
  let optional := fun s => g.parsed? env s (fun text => (parsePath? text).map some) none
  match g.positional with
  | [catalogs, table, records] => do
    let table ← parsePath? table
    let records ← parsePath? records
    let symbolTable ← optional .symbolTable
    let decoderHeader ← optional .decoderHeader
    let decoderSource ← optional .decoderSource
    some (catalogs, {
      deviceTable := table
      pollRecords := records
      symbolTable := symbolTable
      decoderHeader := decoderHeader
      decoderSource := decoderSource
    })
  | _ => none

/-- Quiet and verbose exclude each other on the same level. -/
def Loudness.consistent (l : Loudness) : Bool :=
  !(l.quiet && 0 < l.verbose)

/-- How much is reported: quiet on either level wins, and the command's own count replaces the program's. -/
def verbosity (program command : Loudness) : Verbosity :=
  if program.quiet || command.quiet then .quiet
  else
    match if command.verbose = 0 then program.verbose else command.verbose with
    | 0 => .normal
    | _ => .detailed

/-- The verb that a word names. -/
def Verb.ofWord? : String → Option Verb
  | "devtypes-gen" => some .generate
  | "devtypes-check" => some .check
  | _ => none

/-- The word that asks for help where a verb may stand. -/
def helpWord : String := "help"

/-- What may stand behind the word for help: nothing, or one word that it can explain. -/
def isHelpTopic : List String → Bool
  | [] => true
  | [word] => word = helpWord || (Verb.ofWord? word).isSome
  | _ => false

/-- What the arguments ask for; none when they are not a command line. -/
def parse? (env : Environment) (arguments : List String) : Option Request := do
  let (front, command) ← readFront? {} arguments
  if front.help then some .help
  else
    let (name, rest) ← command
    if name = helpWord then if isHelpTopic rest then some .help else none
    else
      let verb ← Verb.ofWord? name
      let g ← Given.read? {} rest
      if g.help then some .help
      else if !front.loudness.consistent || !g.loudness.consistent then none
      else
        let options ← g.options? env
        let (catalogs, paths) ← g.paths? env
        some (.run ⟨verb, verbosity front.loudness g.loudness, catalogs, options, paths⟩)

end DeviceCatalog.CommandLine
