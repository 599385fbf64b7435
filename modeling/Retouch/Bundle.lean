import Retouch.Text.Utf8

/-! The bundle as it lies on disk: UTF-8 text, with or without a byte order mark. Anything else is
refused, since it could not be written back as it was. -/
namespace Retouch

structure Bundle where
  text : Text
  /-- A byte order mark stands before the text. -/
  marked : Bool
  deriving DecidableEq, Repr

inductive BundleError where
  | foreign (encoding : String)
  | malformed
  deriving DecidableEq, Repr

def BundleError.message : BundleError → String
  | foreign encoding => "target is " ++ encoding ++ ", expected UTF-8"
  | malformed => "target is not valid UTF-8"

namespace Bundle

def mark : List UInt8 := [0xEF, 0xBB, 0xBF]

def decode (bs : List UInt8) : Except BundleError Bundle :=
  match bs with
  | 0xFF :: 0xFE :: _ => .error (.foreign "UTF-16LE")
  | 0xFE :: 0xFF :: _ => .error (.foreign "UTF-16BE")
  | 0xEF :: 0xBB :: 0xBF :: rest => read true rest
  | _ => read false bs
where
  read (marked : Bool) (bs : List UInt8) : Except BundleError Bundle :=
    match Utf8.decode? bs with
    | some text => .ok ⟨text, marked⟩
    | none => .error .malformed

def encode (b : Bundle) : List UInt8 := (if b.marked then mark else []) ++ b.text.bytes

end Bundle
end Retouch
