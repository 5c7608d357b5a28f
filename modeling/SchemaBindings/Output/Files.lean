import SchemaBindings.Binding.WireNames
import SchemaBindings.Output.Basic
import SchemaBindings.Schema.Document
import SchemaBindings.Text.Blank

/-!
# Generated files

The output of a document written to its files: a native header, a header of container classes if
there are any, and an implementation. Headers and implementations include the headers of the
other documents they refer to.
-/

namespace SchemaBindings

open Text

/-- A file, at a path below the output directory. -/
structure GeneratedFile where
  path : String
  contents : String
  deriving DecidableEq, Repr

structure Artifacts where
  title : String
  nativeHeader : GeneratedFile
  wireHeader : Option GeneratedFile
  implementation : GeneratedFile
  deriving DecidableEq, Repr

def Artifacts.files (a : Artifacts) : List GeneratedFile :=
  a.nativeHeader :: a.wireHeader.toList ++ [a.implementation]

namespace Files

/-- The path of a name below a directory; an absolute name stands for itself. -/
def join (directory name : String) : String :=
  match name.toList, directory.toList.getLast? with
  | '/' :: _, _ => name
  | _, some '/' => directory ++ name
  | _, none => name
  | _, _ => directory ++ "/" ++ name

/-- Name of the native header of a document, as other files include it. -/
def nativeHeaderName (title : String) : Family → String
  | .api => capitalize title ++ ".h"
  | .schema => "Common/" ++ capitalize title ++ ".h"

def wireHeaderName (title : String) : String := "JsonData_" ++ capitalize title ++ ".h"

def implementationName (title : String) : Family → String
  | .api => capitalize title ++ ".cpp"
  | .schema => capitalize title ++ "_Common.cpp"

def includeLine (name : String) : String := "#include \"" ++ name ++ "\"\n"

/-- The lines of a text, each without its line break. -/
def textLines (text : String) : List String :=
  (splitChars '\n' text.toList).map String.ofList

/-- The header text as a comment, one starred line for each of its lines. -/
def banner (headerText : Option String) : String :=
  match headerText.map trim with
  | none => ""
  | some text =>
    if text = "" then ""
    else "/*\n" ++ String.join ((textLines text).map fun l ↦ trimEnd (" * " ++ l) ++ "\n") ++
      " */\n\n"

def externOpen : String := "#ifdef __cplusplus\nextern \"C\" \x7b\n#endif\n\n"

def externClose : String := "#ifdef __cplusplus\n\x7d\n#endif\n"

/-- A section of fragments under a heading, unless it is empty. -/
def titled (heading : String) (fragments : Fragments) : String :=
  if fragments.isEmpty then "" else heading ++ "\n" ++ fragments.render "\n" ++ "\n"

def guard (document : Document) : String :=
  Names.includeGuard document.title
    (match document.family with
      | .api => none
      | .schema => some "common")

def nativeHeader (runtime : Runtime) (headerText : Option String) (document : Document)
    (output : Output) : String :=
  banner headerText ++
  "#ifndef " ++ guard document ++ "\n#define " ++ guard document ++ "\n\n" ++
  includeLine runtime.typesHeader ++
  String.join (output.externals.map fun title ↦ includeLine (nativeHeaderName title .schema)) ++
  "\n" ++ externOpen ++
  titled "// Enums" output.enums ++
  titled "// Types" output.declarations ++
  titled "// Methods" output.prototypes ++
  externClose ++ "\n" ++
  "#endif // " ++ guard document ++ "\n"

def wireHeader (runtime : Runtime) (headerText : Option String) (document : Document)
    (output : Output) (includes : List String) : String :=
  banner headerText ++
  "#pragma once\n\n" ++
  includeLine (nativeHeaderName document.title document.family) ++
  String.join (includes.map includeLine) ++
  "\nnamespace " ++ runtime.sdkNamespace ++ " \x7b\nnamespace " ++ capitalize document.title ++
  " \x7b\n    // Types\n\n" ++
  output.containers.render "\n" ++
  "\n\x7d\n\x7d\n"

def conversions (runtime : Runtime) (output : Output) : String :=
  if output.conversions.isEmpty then ""
  else
    "namespace " ++ runtime.enumConversionNamespace ++ " \x7b\n\n/* Enum conversions */\n" ++
    output.conversions.render "\n" ++
    "\n\x7d\n\n"

def implementation (runtime : Runtime) (headerText : Option String) (document : Document)
    (output : Output) (includes : List String) : String :=
  banner headerText ++
  includeLine runtime.runtimeHeader ++
  includeLine (nativeHeaderName document.title document.family) ++
  (if output.containers.isEmpty then "" else includeLine (wireHeaderName document.title)) ++
  String.join (includes.map includeLine) ++
  (if output.usesMetrics then includeLine (capitalize runtime.metricsModule ++ ".h") else "") ++
  "\n" ++
  conversions runtime output ++
  externOpen ++
  titled "// Accessors" output.definitions ++
  titled "// Methods" output.implementations ++
  externClose

/-- Whether code of the output names a container class of the document with this title. -/
def usesContainersOf (runtime : Runtime) (output : Output) (title : String) : Bool :=
  let qualifier := runtime.sdkNamespace ++ "::" ++ capitalize title ++ "::JsonData_"
  [output.containers, output.definitions, output.implementations].any fun fragments ↦
    fragments.texts.any (occurs qualifier)

/-- Headers of the container classes of other documents that the output names. -/
def wireIncludes (runtime : Runtime) (output : Output) : List String :=
  (output.externals.filter (usesContainersOf runtime output)).map wireHeaderName

def assemble (runtime : Runtime) (headerText : Option String) (document : Document)
    (output : Output) : Artifacts :=
  let includes := wireIncludes runtime output
  { title := document.title
    nativeHeader := ⟨join "include" (nativeHeaderName document.title document.family),
      nativeHeader runtime headerText document output⟩
    wireHeader :=
      if output.containers.isEmpty then none
      else some ⟨join "src" (wireHeaderName document.title),
        wireHeader runtime headerText document output includes⟩
    implementation := ⟨join "src" (implementationName document.title document.family),
      implementation runtime headerText document output includes⟩ }

end Files

end SchemaBindings
