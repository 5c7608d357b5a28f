import SchemaBindings.Text.Pieces

/-!
# Command line arguments

The commands and their options. An option takes one value, in the next argument or attached to
it, and values of path options are not empty. A command line that does not follow these rules is
refused as a whole.
-/

namespace SchemaBindings

structure GenerateOptions where
  /-- Documents and directories of documents, in the order in which they are loaded. -/
  inputs : List String
  output : String
  config : Option String
  /-- Titles that replace the included titles of the settings, if there are any. -/
  only : List String
  deriving DecidableEq, Repr

inductive Command where
  | generate (options : GenerateOptions)
  | check (config : Option String)
  | version
  | help
  deriving DecidableEq, Repr

namespace Command

/-- An option of a command by its long name, and its letter if it has one. -/
structure OptionName where
  long : String
  short : Option Char
  isPath : Bool
  isRepeatable : Bool
  deriving DecidableEq, Repr

def schemasOption : OptionName := ⟨"schemas", some 's', true, true⟩

def modulesOption : OptionName := ⟨"modules", some 'm', true, true⟩

def outputOption : OptionName := ⟨"output", some 'o', true, false⟩

def configOption : OptionName := ⟨"config", some 'c', true, false⟩

def moduleOption : OptionName := ⟨"module", none, false, true⟩

def generateOptions : List OptionName :=
  [schemasOption, modulesOption, outputOption, configOption, moduleOption]

def checkOptions : List OptionName := [configOption]

/-- What one argument is. -/
inductive Argument where
  | option (name : OptionName) (attached : Option String)
  | help
  | ending
  | unknown

def longArgument (options : List OptionName) (text : List Char) : Argument :=
  let (name, attached) := match Text.cutChars '=' text with
    | some (name, value) => (String.ofList name, some (String.ofList value))
    | none => (String.ofList text, none)
  match options.find? (·.long = name), attached with
  | some option, attached => .option option attached
  | none, none => if name = "help" then .help else .unknown
  | none, some _ => .unknown

def shortArgument (options : List OptionName) (letter : Char) (rest : List Char) : Argument :=
  match options.find? (·.short = some letter) with
  | some option => match rest with
    | [] => .option option none
    | '=' :: value => .option option (some (String.ofList value))
    | value => .option option (some (String.ofList value))
  | none => if letter = 'h' then .help else .unknown

def argument (options : List OptionName) (text : String) : Argument :=
  match text.toList with
  | ['-', '-'] => .ending
  | '-' :: '-' :: name => longArgument options name
  | '-' :: letter :: rest => shortArgument options letter rest
  | _ => .unknown

def isValue (text : String) : Bool :=
  match text.toList with
  | '-' :: _ :: _ => false
  | _ => true

abbrev Given := List (OptionName × String)

/-- One more value of an option, if the option admits it. -/
def give? (given : Given) (option : OptionName) (value : String) : Option Given :=
  if option.isPath && value = "" then none
  else if !option.isRepeatable && given.any (·.1 = option) then none
  else some (given ++ [(option, value)])

/-- The values given to options, or nothing where help is asked for. -/
def options? (options : List OptionName) (given : Given) : List String → Option (Option Given)
  | [] => some (some given)
  | text :: rest =>
    match argument options text with
    | .help => some none
    | .ending => if rest.isEmpty then some (some given) else none
    | .unknown => none
    | .option name (some value) =>
      (give? given name value).bind fun given ↦ options? options given rest
    | .option name none => match rest with
      | value :: rest =>
        if isValue value then
          (give? given name value).bind fun given ↦ options? options given rest
        else none
      | [] => none

def valuesOf (given : Given) (option : OptionName) : List String :=
  (given.filter (·.1 = option)).map (·.2)

def generate? (given : Given) : Option Command :=
  (valuesOf given outputOption).head?.map fun output ↦ .generate {
    inputs := valuesOf given schemasOption ++ valuesOf given modulesOption
    output := output
    config := (valuesOf given configOption).head?
    only := valuesOf given moduleOption }

/-- The command of a command line; one that is refused has none. -/
def parse? : List String → Option Command
  | [] => none
  | "generate" :: rest =>
    match options? generateOptions [] rest with
    | some (some given) => generate? given
    | some none => some .help
    | none => none
  | "check" :: rest =>
    match options? checkOptions [] rest with
    | some (some given) => some (.check (valuesOf given configOption).head?)
    | some none => some .help
    | none => none
  | ["help"] => some .help
  | ["help", topic] => if topic ∈ ["generate", "check", "help"] then some .help else none
  | text :: _ =>
    match text.toList with
    | ['-', '-', 'v', 'e', 'r', 's', 'i', 'o', 'n'] => some .version
    | ['-', '-', 'h', 'e', 'l', 'p'] => some .help
    | '-' :: 'V' :: _ => some .version
    | '-' :: 'h' :: _ => some .help
    | _ => none

end Command

end SchemaBindings
