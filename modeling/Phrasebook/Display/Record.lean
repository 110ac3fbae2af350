import Phrasebook.Display
import Phrasebook.Display.Channel

/-! A display that only keeps a record: the texts its elements read, the settings of its surface and
its notices. Settings can be named that it refuses. -/
namespace Phrasebook

structure Record where
  refreshed : List (String × Option String)
  settings : List (Setting × String)
  refused : List String
  channel : Channel

namespace Record

def new : Record := ⟨[], [], [], .new⟩

/-- Notes a setting, unless it is refused. -/
def note (setting : Setting) (value : String) : Act Record := fun r =>
  if setting.name ∈ r.refused then (r, some (.surface setting ("refused " ++ value)))
  else ({ r with settings := r.settings ++ [(setting, value)] }, none)

def surface : Surface Record where
  notify r := { r with channel := r.channel.send }
  font := note .font
  scale x := note .scale x.text
  wrap w := note .wordWrap w.text

/-- An element that notes what it reads under its id. -/
def reader (id : String) (read : Translator → Option String) : Element Record :=
  some fun t r => ({ r with refreshed := r.refreshed ++ [(id, read t)] }, none)

/-- An element that cannot be refreshed. -/
def detached (id : String) : Element Record := some fun _ r => (r, some (.refresh id "detached"))

end Record
end Phrasebook
