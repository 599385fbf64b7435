import Retouch.Proofs.Pattern.Nearest
import Retouch.Proofs.Scan.Bracket

/-! A search for what opens a bracket before an anchor, such as the head of a function. The bracket nearest to
the anchor is found, and it may be closed again before the anchor: then what it opens does not hold the
anchor, though something that opens farther away may. -/
namespace Retouch.Anchored

open Scan

variable {p : Pattern} {t needle : Text} {a : Anchored} {x : Char} {n : Nat} {opener closer : UInt8}

/-- A bracket that opens at an offset closes after a span of the text. -/
def ClosesPast (t : Text) (opener closer : UInt8) (place : Nat) (s : Span) : Prop :=
  ∃ stop, balancedEnd? t place opener closer = some stop ∧ s.stop < stop

/-- The brackets of some bytes of code close nothing that was open before. -/
def ClosesNothing (opener closer : UInt8) (bs : List UInt8) : Prop :=
  (level? (· == opener) (· == closer) (.code, 0) bs).isSome

instance (opener closer : UInt8) (bs : List UInt8) : Decidable (ClosesNothing opener closer bs) :=
  inferInstanceAs (Decidable (_ = true))

/-- The bytes from the bracket that is found to the end of the anchor. -/
lemma Finds.exists_bytes (h : Finds t needle ⟨n, 0⟩ p a) (hends : EndsWith p x) (hx : x ∉ needle)
    (hopens : Text.bytes [x] = [opener]) : ∃ front rest : List UInt8, ∃ between : Text,
      t.bytes = front ++ opener :: (between.bytes ++ (needle.bytes ++ rest)) ∧
      a.found.span.stop = front.length + 1 ∧ t.slice? (front.length + 1) a.anchor.start = some between ∧
      a.anchor.stop = front.length + 1 + between.bytes.length + needle.bytes.length := by
  obtain ⟨front, covered, between, rest, spans, ht, hcovers, hanchor, hfound⟩ := h.exists_append hends hx
  obtain ⟨head, rfl⟩ := hends covered spans hcovers
  have hcons (m : Text) : Text.bytes (x :: m) = opener :: m.bytes := by
    rw [← List.singleton_append, Text.bytes_append, hopens]
    rfl
  have hsize : x.utf8Size = 1 := by
    have := congrArg List.length hopens
    rwa [Text.length_bytes, Text.size_cons, Text.size_nil, Nat.add_zero] at this
  have hstop : Text.size (front ++ (head ++ [x])) = (Text.bytes (front ++ head)).length + 1 := by
    simp [hsize, Nat.add_assoc]
  refine ⟨Text.bytes (front ++ head), rest.bytes, between, ?_, ?_, ?_, ?_⟩
  · rw [ht]
    simp [hcons]
  · rw [hfound, ← hstop]
    exact (Text.size_append _ _).symm
  · have := Text.slice?_append (front ++ (head ++ [x])) between (needle ++ rest)
    rwa [← Text.size_append, ← hanchor, ← List.append_assoc, ← ht, hstop] at this
  · rw [h.anchor_stop, hanchor, Text.size_append, hstop, Text.length_bytes between, Text.length_bytes needle]

/-- The bracket that is found holds the anchor exactly if it closes at all, and no bracket between them
closes it. -/
theorem Finds.closesPast_iff (h : Finds t needle ⟨n, 0⟩ p a) (hends : EndsWith p x) (hx : x ∉ needle)
    (hopens : Text.bytes [x] = [opener]) (hopener : isQuote opener = false)
    (hcloser : isQuote closer = false) (hne : opener ≠ closer) (hneedle : closer ∉ needle.bytes) :
    ∃ place between, a.found.span.stop = place + 1 ∧ t.slice? (place + 1) a.anchor.start = some between ∧
      (ClosesPast t opener closer place a.anchor ↔
        (balancedEnd? t place opener closer).isSome ∧ ClosesNothing opener closer between.bytes) := by
  obtain ⟨front, rest, between, hbytes, hfirst, hslice, hpast⟩ := h.exists_bytes hends hx hopens
  have hiff {stop : Nat} (hstop : balancedEnd? t front.length opener closer = some stop) :=
    past_balancedEnd?_iff hopener hcloser hne hneedle hbytes hstop
  refine ⟨front.length, between, hfirst, hslice, ?_⟩
  constructor
  · rintro ⟨stop, hstop, hlt⟩
    exact ⟨Option.isSome_of_eq_some hstop, (hiff hstop).1 (hpast ▸ hlt)⟩
  · rintro ⟨hsome, hlevel⟩
    obtain ⟨stop, hstop⟩ := Option.isSome_iff_exists.1 hsome
    exact ⟨stop, hstop, hpast ▸ (hiff hstop).2 hlevel⟩

end Retouch.Anchored
