import Retouch.Installation
import Retouch.Proofs.Attempt
import Retouch.Proofs.Bundle.RoundTrip
import Retouch.Proofs.Release.Banner

/-! The release of a bundle, told from its bytes and told from its text. The bytes are read with the
byte order mark that may stand before them, the text without it. -/
namespace Retouch

/-- The mark is a character as any other. -/
lemma Utf8.decodeLossy_mark_append {bs : List UInt8} {t : Text} (h : decode? bs = some t) :
    decodeLossy (Bundle.mark ++ bs) = '\ufeff' :: t := by
  have hmark : Bundle.mark.foldl step ⟨[], none⟩ = ⟨[some '\ufeff'].reverse, none⟩ := rfl
  apply decodeLossy_of_units
  rw [units_append hmark, units_of_decode? h]
  rfl

namespace Installation

variable {bytes : List UInt8} {b : Bundle}

lemma releaseOf_eq (h : Bundle.decode bytes = .ok b) :
    releaseOf bytes =
      if b.marked then Release.ofLaterBanner? (Release.bannerReach - 3) b.text
      else Release.ofBanner? b.text := by
  obtain ⟨text, marked⟩ := b
  obtain ⟨rfl, -⟩ := Bundle.decode_eq_ok_iff.1 h
  cases marked with
  | true =>
    rw [Bundle.encode_mk_true, releaseOf, Utf8.decodeLossy_mark_append (Utf8.decode?_bytes text),
      Release.ofBanner?_mark_cons]
    rfl
  | false =>
    rw [Bundle.encode_mk_false, releaseOf,
      Utf8.decodeLossy_of_units (Utf8.units_of_decode? (Utf8.decode?_bytes text))]
    rfl

/-- The release that decides about the backup is the one that the cycle goes by, exactly if no mark
hides the banner. -/
theorem releaseOf_eq_ofBanner?_iff (h : Bundle.decode bytes = .ok b) :
    releaseOf bytes = Release.ofBanner? b.text ↔
      (b.marked = true →
        Release.ofLaterBanner? (Release.bannerReach - 3) b.text = Release.ofBanner? b.text) := by
  rw [releaseOf_eq h]
  cases b.marked <;> simp

/-- A mark before a banner on the first line. -/
theorem releaseOf_ne_of_mark :
    ∃ b, Bundle.decode (Bundle.mark ++ Text.bytes "// Version: 1.0.0".toList) = .ok b ∧
      releaseOf (Bundle.mark ++ Text.bytes "// Version: 1.0.0".toList) ≠
        Release.ofBanner? b.text := by
  have hdecode : Bundle.decode (Bundle.mark ++ Text.bytes "// Version: 1.0.0".toList) =
      .ok ⟨"// Version: 1.0.0".toList, true⟩ := by decide +kernel
  refine ⟨_, hdecode, fun h => ?_⟩
  have hsame := (releaseOf_eq_ofBanner?_iff hdecode).1 h rfl
  exact absurd hsame (by decide +kernel)

end Installation
end Retouch
