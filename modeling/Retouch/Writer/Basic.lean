import Retouch.Edit.Basic
import Retouch.Json.Value
import Retouch.Literal.Encode
import Retouch.Release
import Retouch.Settings.Basic

/-! Writers: each plans the edits that bring one setting into the bundle, or tells why it cannot. -/
namespace Retouch

/-- How a writer changes the bundle. -/
inductive Technique where
  | scalar
  | structured
  | conditional
  | styled
  | insertion
  | deletion
  | bundle
  | prompt
  deriving DecidableEq, Repr

def Technique.label : Technique → String
  | scalar => "scalar"
  | structured => "structured"
  | conditional => "conditional"
  | styled => "styled-output"
  | insertion => "insertion"
  | deletion => "deletion"
  | bundle => "multi-location"
  | prompt => "prompt"

structure Writer where
  id : String
  technique : Technique
  releases : Release.Range
  plan : Settings → Text → Attempt (List Edit)

namespace Writer

/-- The edits for a bundle of some release, if the writer supports it. -/
def run (w : Writer) (settings : Settings) (release : Option Release) (t : Text) :
    Attempt (List Edit) :=
  if w.releases.admits release then w.plan settings t
  else .skip (.otherRelease ((release.map Release.render).getD ""))

/-- Goes on where a setting asks for it. -/
def require (isAsked : Bool) : Attempt Unit := if isAsked then .ok () else .skip .turnedOff

/-- Text with the values of strings in it written as a JSON string. -/
def quoted (s : String) : Text := (Json.string s).compact

/-- The braces that mark the place of a value in a format. -/
def placeholder : Text := "\x7b\x7d".toList

/-- New code in the alphabet of the code that it replaces: all ASCII where that uses escapes. -/
def inAlphabetOf (present new : Text) : Text :=
  if Literal.usesEscapes present then Literal.toAscii new else new

end Writer
end Retouch
