import TypeModel.Config
import TypeModel.Document.Toml
import TypeModel.Model.Decode
import TypeModel.Output.FileSystem

/-!
# Reading settings and models from files

Settings are searched in this order: the given file, the file of the project, the file of the
system; without any of them the defaults hold.  A file that was given has to exist.
-/

namespace TypeModel.Cli

inductive LoadError where
  /-- the file cannot be read -/
  | unreadable (path : String)
  | missingConfig (path : String)
  | configRejected (reason : String)
  | modelRejected (path reason : String)
  | emptyModel (path : String)
  deriving DecidableEq, Repr

/-- a document read by a decoder, or the reason it cannot be -/
def decodeText {α : Type} (d : Decoder α) (text : String) : Except String α :=
  match Toml.parse? text with
  | none => .error "not a TOML document"
  | some v => (d v).mapError DecodeError.message

/-- where settings of a project are looked for -/
def localConfigPath : String := "typeforge/config.toml"

/-- where settings of the system are looked for, below its settings directory -/
def systemConfigPath (settings : String) : String := Path.join settings "typeforge/config.toml"

def loadConfigFile (fs : FileSystem) (path : String) : Except LoadError Config :=
  if fs.contains path then
    match fs.read? path with
    | none => .error (.unreadable path)
    | some text => (decodeText Config.decode text).mapError .configRejected
  else .error (.missingConfig path)

/-- settings from the given file, or from the first of the usual files that exists -/
def loadConfig (fs : FileSystem) (settings : String) (explicit : Option String) :
    Except LoadError Config :=
  match explicit with
  | some path => loadConfigFile fs path
  | none =>
    if fs.contains localConfigPath then loadConfigFile fs localConfigPath
    else if fs.contains (systemConfigPath settings) then
      loadConfigFile fs (systemConfigPath settings)
    else .ok {}

def loadModel (fs : FileSystem) (path : String) : Except LoadError Model :=
  match fs.read? path with
  | none => .error (.unreadable path)
  | some text => do
    let m ← (decodeText Model.decode text).mapError (.modelRejected path)
    if m.primitives.isEmpty && m.types.isEmpty && m.packages.isEmpty then
      throw (.emptyModel path)
    return m

end TypeModel.Cli
