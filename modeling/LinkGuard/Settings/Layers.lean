import LinkGuard.Layer.Datum
import LinkGuard.Layer.Environment
import LinkGuard.Layer.Path

/-! # Settings out of layers

The environment lies upon a file. What both say together is read generously, and then checked like
all settings.
-/

namespace LinkGuard

inductive BaseFile where
  /-- No file is asked for. -/
  | unused
  | missing
  | holding (text : String)

inductive Loaded where
  | settings (settings : Settings)
  | refused (fault : SettingsFault)
  /-- A key leaves no way to go on. -/
  | aborted
deriving DecidableEq

def BaseFile.members : BaseFile → Except Layer.Fault (List (String × Layer.Value))
  | unused => .ok []
  | missing => .error .unreadable
  | holding text => Layer.readTable text

namespace Settings

/-- The table that the layers make together. -/
def layers (file : BaseFile) (environment : List (String × String)) :
    Except Layer.Fault Layer.Value := do
  let root ← Layer.Value.lay (← file.members) (.table [])
  Layer.Value.lay (Layer.Environment.members environment) root

/-- The settings that a file and the environment make, checked. -/
def load (file : BaseFile) (environment : List (String × String)) : Loaded :=
  match layers file environment with
  | .error .strangeKey => .aborted
  | .error .unreadable => .refused .unloadable
  | .ok root =>
    match checked .unloadable (Layer.Value.reading.settings root) with
    | .ok settings => .settings settings
    | .error fault => .refused fault

end Settings

end LinkGuard
