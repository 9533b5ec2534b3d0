import ArchiveBrowser.Log.Event

/-!
# Log configuration

Which events are shown and whether in colour. The environment gives the defaults:
one variable names the level, and the mere presence of another turns colour off.
-/

set_option autoImplicit false

namespace ArchiveBrowser.Log

structure Config where
  level : Level
  color : Bool
  deriving DecidableEq

namespace Config

def standard : Config :=
  { level := .standard, color := true }

def ofLevel (level : Level) : Config :=
  { level, color := true }

def levelVariable : String := "NXKIT_LOG"

def noColorVariable : String := "NO_COLOR"

/-- The configuration of an environment: a level that cannot be read counts as none,
and colour is off if `noColor` holds any text, the empty one included. -/
def ofEnvironment (level noColor : Option String) : Config :=
  { level := ((level.bind fun text => (Level.parse text).toOption)).getD .standard
    color := noColor.isNone }

def shows (config : Config) (event : Event) : Bool :=
  config.level.label.rank ≤ event.label.rank

def render (config : Config) (event : Event) : String :=
  if config.color then event.renderStyled else event.render

end Config

end ArchiveBrowser.Log
