import Deferred.Config
import Deferred.Config.Format

set_option autoImplicit false

namespace Deferred

namespace SubstituteConfig

variable (F : Format)

def layout : Layout SubstituteConfig where
  standard := standard
  fields := [
    .of "max_depth" F.size (·.maxDepth) fun n c => { c with maxDepth := n },
    .of "global_env_as_never" F.flag (·.globalAsNothing) fun b c => { c with globalAsNothing := b }]
  nodup := by
    change ["max_depth", "global_env_as_never"].Nodup
    decide

def codec : Codec SubstituteConfig := F.record (layout F)

end SubstituteConfig

namespace Config

variable (F : Format)

def layout : Layout Config where
  standard := standard
  fields := [.of "substitute" (SubstituteConfig.codec F) (·.substitute) fun s _ => ⟨s⟩]
  nodup := by simp

def codec : Codec Config := F.record (layout F)

/-- Reads a document, which need only name what differs from the standard configuration, and checks
what it says. -/
def ofText (text : String) : Except ConfigFault Config := do
  let c ← (F.read text >>= (codec F).decode).mapError .malformed
  c.validate

inductive FileFault where
  | missing
  | notText
  deriving DecidableEq, Repr

def FileFault.reason : FileFault → String
  | missing => "No such file or directory (os error 2)"
  | notText => "stream did not contain valid UTF-8"

/-- Reads the document in a file with the given contents. -/
def ofFile (path : String) : Except FileFault ByteArray → Except ConfigFault Config
  | .error e => .error (.unreadable path e.reason)
  | .ok bytes =>
    match String.fromUTF8? bytes with
    | some text => ofText F text
    | none => .error (.unreadable path FileFault.notText.reason)

/-- The document that describes a configuration in full. -/
def toText (c : Config) : Except String String := F.write ((codec F).encode c)

end Config

end Deferred
