/-
This file loads the inputs of a command: it finds the files that patterns name, cuts their texts
into documents and takes the declarations out of them.
-/

import DecoderForge.CommandLine.Arguments
import DecoderForge.CommandLine.Event
import DecoderForge.Glob.Expand
import DecoderForge.Json.Pointer
import DecoderForge.Loading.Descriptor
import DecoderForge.RunError
import DecoderForge.Text.Blank
import DecoderForge.Text.Lines

namespace DecoderForge

namespace CommandLine

open Loading

/-- What the text of a filter makes of a value, or a message on why it fails. -/
abbrev Evaluator := String → Json → Except String (List Json)

/-- Gives the content of the file to which a path leads. -/
abbrev Contents := String → Except FileError ByteArray

namespace Selection

/-- The texts of the documents in the text of an input. A blank line holds no document. -/
def texts (selection : Selection) (text : String) : List String :=
  if selection.byLine then (Text.lines text).filter fun line => !Text.isBlankLine line else [text]

/-- The part of a document to which the pointer leads. -/
def part (selection : Selection) (value : Json) : Loaded Json :=
  match selection.pointer with
  | none => .ok value
  | some pointer =>
    match value.at? pointer with
    | some part => .ok part
    | none => .error (.noNode none pointer)

/-- What the filter makes of a part. -/
def results (selection : Selection) (evaluate : Evaluator) (value : Json) : Loaded (List Json) :=
  match selection.filter with
  | none => .ok [value]
  | some filter => (evaluate filter value).mapError (.filter none)

/-- The modules in the text of a document. -/
def modules (selection : Selection) (evaluate : Evaluator) (text : String) :
    Loaded (List SourceModule) :=
  match selection.pointer, selection.filter with
  | none, none => do return [← loadText Reader.sourceModule text]
  | _, _ => do
    let value ← loadText Reader.anything text
    let values ← selection.results evaluate (← selection.part value)
    values.mapM (loadValue Reader.sourceModule)

/-- The declarations in the text of an input. -/
def declarations (selection : Selection) (evaluate : Evaluator) (text : String) :
    Loaded (List Declaration) := do
  let modules ← (selection.texts text).mapM (selection.modules evaluate)
  return modules.flatten.flatMap SourceModule.declarations

end Selection

/-- Whether a path stands for the standard input. -/
def isStandardInput (path : String) : Bool := Path.isOnly "-" path

/-- How an input is named in what a run tells. -/
def displayName (path : String) : String := if isStandardInput path then "<stdin>" else path

/-- The bytes as a text. -/
def decodeText (name : String) (content : Except FileError ByteArray) : Loaded String :=
  match content with
  | .error cause => .error (.unreadable name cause)
  | .ok bytes =>
    match String.fromUTF8? bytes with
    | some text => .ok text
    | none => .error (.unreadable name .notText)

/-- The declarations in one input. -/
def loadInput (selection : Selection) (evaluate : Evaluator) (name : String)
    (content : Except FileError ByteArray) : Loaded (List Declaration) := do
  let text ← decodeText name content
  (selection.declarations evaluate text).mapError (.inFile name)

/-- The declarations in inputs. The standard input is empty when it has been read once. -/
def loadInputs (selection : Selection) (evaluate : Evaluator) (contents : Contents)
    (standardInput : ByteArray) : List String → List Event × Loaded (List Declaration)
  | [] => ([], .ok [])
  | path :: rest =>
    let standard := isStandardInput path
    let content := if standard then .ok standardInput else contents path
    match loadInput selection evaluate (displayName path) content with
    | .error e => ([], .error e)
    | .ok declarations =>
      let remaining := if standard then .empty else standardInput
      let (events, result) := loadInputs selection evaluate contents remaining rest
      (.loaded (displayName path) :: events, result.map (declarations ++ ·))

/-- The paths that an argument names: those that match if it is a pattern, or else itself. -/
def inputPaths (tree : FileTree) (argument : String) : Loaded (List String) :=
  if Glob.isPattern argument then
    match Glob.expand tree argument with
    | .error e => .error (.pattern e)
    | .ok [] => .error (.noMatch argument)
    | .ok paths => .ok paths
  else .ok [argument]

def allInputPaths (tree : FileTree) (arguments : List String) : Loaded (List String) := do
  return (← arguments.mapM (inputPaths tree)).flatten

end CommandLine

end DecoderForge
