import SchemaBindings.Command.Arguments
import SchemaBindings.Command.Host
import SchemaBindings.Output.Generate
import SchemaBindings.Toml.Reader
import SchemaBindings.Toml.Settings

/-!
# Running commands

Generating files from documents and checking a configuration, on any host. A command that fails
stops with the outermost reason. A run of the generator in which a document fails is no such
failure, but it does not end well either.
-/

namespace SchemaBindings

/-- How a command ended: its exit code, and the reason if it failed. -/
structure Ending where
  code : Nat
  reason : Option String
  deriving DecidableEq, Repr

/-- The first line of the reason, which shows beside the word that announces it. -/
def Ending.line? (ending : Ending) : Option String := ending.reason.map Text.firstLine

namespace Command

variable {m : Type → Type} [Monad m]

abbrev Job (m : Type → Type) (α : Type) := ExceptT String m α

def printLine (host : Host m) (text : String) : Job m Unit :=
  ExceptT.lift (host.print (text ++ "\n"))

def settingsOfText? (text : String) : Option Settings :=
  (Toml.read? text).bind Settings.ofToml?

def validated (settings : Settings) : Job m Settings :=
  match settings.validate with
  | .ok () => pure settings
  | .error _ => throw "Invalid configuration"

/-- The settings of a configuration file, or the defaults. -/
def loadSettings (host : Host m) : Option String → Job m Settings
  | none => validated {}
  | some path => do
    let text ← ExceptT.lift (host.read? path)
    match text.bind settingsOfText? with
    | some settings => validated settings
    | none => throw ("Failed to load configuration: " ++ path)

/-- Names that end in `.json` behind at least one character. -/
def isDocumentName (name : String) : Bool :=
  match name.toList.reverse with
  | 'n' :: 'o' :: 's' :: 'j' :: '.' :: _ :: _ => true
  | _ => false

/-- The document files of an input, in the order of their names. -/
def documentFiles (host : Host m) (input : String) : Job m (List String) := do
  if ← ExceptT.lift (host.isFile input) then return [input]
  unless ← ExceptT.lift (host.isDirectory input) do
    throw ("Input path does not exist: " ++ input)
  match ← ExceptT.lift (host.names? input) with
  | none => throw ("Failed to read directory: " ++ input)
  | some names =>
    let sorted := (names.filter isDocumentName).mergeSort
    (sorted.map (Files.join input)).filterM fun path ↦ ExceptT.lift (host.isFile path)

def loadFile (host : Host m) (library : Library) (path : String) : Job m Library := do
  match ← ExceptT.lift (host.read? path) with
  | none => throw ("Failed to read " ++ path)
  | some text =>
    match Document.readText text with
    | .ok document => pure (library.insert document)
    | .error _ => throw ("Failed to parse " ++ path)

def loadInput (host : Host m) (library : Library) (input : String) : Job m Library := do
  (← documentFiles host input).foldlM (loadFile host) library

/-- Drops the empty and dot steps at the end of a path that is written in reverse. -/
def dropIdleSteps : List Char → List Char
  | '/' :: rest => dropIdleSteps rest
  | '.' :: '/' :: rest => dropIdleSteps rest
  | path => path

/-- The path to the directory in which the last step of a path stands. -/
def parentOf (path : String) : String :=
  String.ofList (dropIdleSteps (path.toList.reverse.dropWhile (· ≠ '/'))).reverse

def writeFile (host : Host m) (root : String) (file : GeneratedFile) : Job m Unit := do
  let path := Files.join root file.path
  let parent := parentOf path
  unless ← ExceptT.lift (host.makeDirectory parent) do
    throw ("Failed to create directory: " ++ parent)
  unless ← ExceptT.lift (host.write path file.contents) do
    throw ("Failed to write " ++ path)

def outcomeLines (outcome : Outcome) : List String :=
  (match outcome.status with
    | .generated => ["  ✓ " ++ outcome.title]
    | .failed failure => ["  ✗ " ++ outcome.title ++ ": " ++ failure.message]
    | .skipped => []) ++
  outcome.diagnostics.map fun d ↦ "      ! " ++ d.line

def levelOf (settings : Settings) : LogLevel :=
  match LogLevel.parse settings.logLevel with
  | .ok level => level
  | .error _ => .info

def summary (generation : Generation) (level : LogLevel) (output : String) : String :=
  let report := generation.report
  s!"Generated {report.generatedCount} modules into {output} " ++
    s!"({report.warningCount} warnings, {(generation.counts level).errors} errors logged)"

/-- Generates, and tells whether every document was. -/
def runGenerate (host : Host m) (options : GenerateOptions) : Job m Bool := do
  let settings ← loadSettings host options.config
  let library ← options.inputs.foldlM (loadInput host) {}
  printLine host s!"Loaded {library.size} documents"
  let selection : Selection :=
    if options.only.isEmpty then settings.selection
    else { settings.selection with included := options.only }
  match library.generate (fun document ↦ selection.allows document.title) settings with
  | none => throw "Generation does not end"
  | some generation =>
    for artifacts in generation.artifacts do
      for file in artifacts.files do
        writeFile host options.output file
    for outcome in generation.report.outcomes do
      for text in outcomeLines outcome do
        printLine host text
    printLine host ""
    printLine host (summary generation (levelOf settings) options.output)
    pure !generation.report.hasFailures

def runCheck (host : Host m) (config : Option String) : Job m Unit := do
  let path := config.getD "nativebind.toml"
  printLine host ("Checking configuration: " ++ path)
  let settings ← loadSettings host (some path)
  let selection := settings.selection
  printLine host ("  ✓ SDK namespace: " ++ settings.runtime.sdkNamespace)
  printLine host ("  ✓ Runtime header: " ++ settings.runtime.runtimeHeader)
  if selection.included.isEmpty then printLine host "  ✓ Modules: all"
  else printLine host ("  ✓ Modules: " ++ String.intercalate ", " selection.included)
  unless selection.excluded.isEmpty do
    printLine host ("  ✓ Excluded: " ++ String.intercalate ", " selection.excluded)
  printLine host ("  ✓ Log level: " ++ settings.logLevel)
  printLine host ""
  printLine host "Configuration is valid!"

def perform (host : Host m) : Command → Job m Nat
  | .generate options => do pure (if ← runGenerate host options then 0 else 1)
  | .check config => do
    runCheck host config
    pure 0
  | .version => do
    printLine host "nativebind 0.3.0"
    pure 0
  | .help => pure 0

/-- Runs a command line to its end. -/
def run (host : Host m) (arguments : List String) : m Ending := do
  match parse? arguments with
  | none => pure ⟨2, none⟩
  | some command =>
    match ← (perform host command).run with
    | .ok code => pure ⟨code, none⟩
    | .error reason => pure ⟨1, some reason⟩

end Command

end SchemaBindings
