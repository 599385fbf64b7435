import Mathlib.Tactic.SplitIfs
import Retouch.Proofs.Prompt.Found
import Retouch.Proofs.SortedMap

/-! Where a written prompt is located. The first match is the one that starts where the prompt does, and
a variable that stands in several holes has one identifier in all of them, so the captures agree. -/
namespace Retouch

namespace Prompt

open Pattern Cursor Literal

variable {p : Prompt} {identifier : Text → Text} {bound : Identifiers}

/-- Valid data has pieces, and a named slot for each gap between them. -/
lemma of_defect?_eq_none (h : p.defect? = none) :
    p.pieces ≠ [] ∧ p.pieces.length - 1 ≤ p.slots.length ∧
      ∀ slot ∈ p.slots.take (p.pieces.length - 1), ∃ name, p.slotNames.get? slot = some name := by
  unfold defect? at h
  split at h
  · cases h
  · next first rest hpieces =>
    rw [hpieces, List.length_cons, Nat.add_sub_cancel]
    split_ifs at h with hfirst hslots
    refine ⟨nofun, Nat.le_of_not_lt hslots, fun slot hslot => ?_⟩
    rw [Option.map_eq_none_iff, List.find?_eq_none] at h
    have hnamed : p.slotNames.contains slot = true := by simpa using h slot hslot
    exact Option.isSome_iff_exists.1 hnamed

/-- Variables are named by words, and each one has an identifier. -/
def Assigns (p : Prompt) (identifier : Text → Text) : Prop :=
  ∀ slot ∈ p.slots, ∀ name, p.slotNames.get? slot = some name →
    name ≠ [] ∧ (∀ c ∈ name, isWord c = true) ∧ IsIdentifier (identifier name)

/-! ## The texts of a prompt -/

/-- The prompt has some texts around its holes, and in each hole a variable with an identifier. -/
structure ComesOf (p : Prompt) (identifier : Text → Text) (t : Text) (us : List Text) : Prop where
  pieces : p.pieces = piecesOf t us
  plain : ∀ u ∈ t :: us, IsPlain u
  notEscaping : ∀ u ∈ (t :: us).dropLast, ¬Escaping u
  slots : us.length ≤ p.slots.length
  named : ∀ slot ∈ p.slots.take us.length,
    p.slotNames.get? slot = some (p.slotText slot) ∧ p.slotText slot ≠ []
  word : ∀ slot ∈ p.slots.take us.length, ∀ c ∈ p.slotText slot, isWord c = true
  assigned : ∀ slot ∈ p.slots.take us.length, IsIdentifier (identifier (p.slotText slot))

theorem exists_comesOf (hvalid : p.defect? = none) (hnames : p.Assigns identifier)
    (hpieces : IsTemplate p.pieces) : ∃ t us, p.ComesOf identifier t us := by
  obtain ⟨hne, hslots, hnamed⟩ := of_defect?_eq_none hvalid
  obtain ⟨t, us, htexts, hplain, hescaping⟩ := hpieces.exists_texts hne
  rw [htexts, length_piecesOf, Nat.add_sub_cancel] at hslots hnamed
  have hslot : ∀ slot ∈ p.slots.take us.length,
      (p.slotNames.get? slot = some (p.slotText slot) ∧ p.slotText slot ≠ []) ∧
        (∀ c ∈ p.slotText slot, isWord c = true) ∧ IsIdentifier (identifier (p.slotText slot)) := by
    intro slot hslot
    obtain ⟨name, hname⟩ := hnamed slot hslot
    have htext : p.slotText slot = name := by rw [slotText, hname, Option.getD_some]
    obtain ⟨hne, hword, hidentifier⟩ := hnames slot (List.mem_of_mem_take hslot) name hname
    rw [htext]
    exact ⟨⟨hname, hne⟩, hword, hidentifier⟩
  exact ⟨t, us, htexts, hplain, hescaping, hslots, fun slot h => (hslot slot h).1,
    fun slot h => (hslot slot h).2.1, fun slot h => (hslot slot h).2.2⟩

lemma ComesOf.written {t : Text} {us : List Text} (h : p.ComesOf identifier t us) :
    p.written identifier = interleave (fun slot => identifier (p.slotText slot))
      (piecesOf (encode .template t) (us.map (encode .template))) p.slots := by
  rw [Prompt.written, h.pieces, encodePieces_piecesOf]

/-! ## Captures -/

/-- What is bound so far is bound to the identifiers. -/
structure Binds (bound : Identifiers) (identifier : Text → Text) : Prop where
  named : bound.get? [] = none
  value : ∀ name value, bound.get? name = some value → value = identifier name

lemma Binds.insert {name : Text} (h : Binds bound identifier) (hne : name ≠ []) :
    Binds (bound.insert name (identifier name)) identifier := by
  refine ⟨?_, fun other value hvalue => ?_⟩
  · rw [SortedMap.get?_insert, if_neg hne.symm, h.named]
  · rw [SortedMap.get?_insert] at hvalue
    split at hvalue
    · next heq =>
      cases hvalue
      rw [heq]
    · exact h.value other value hvalue

/-- Captures that come of an assignment agree. -/
lemma bindSlots_eq_some {slots : List Nat} (hbound : Binds bound identifier)
    (hslots : ∀ slot ∈ slots,
      p.slotNames.get? slot = some (p.slotText slot) ∧ p.slotText slot ≠ []) :
    ∃ bound', p.bindSlots bound (slots.map fun slot => (slot, identifier (p.slotText slot))) =
        some bound' ∧ Binds bound' identifier ∧
      (∀ name value, bound.get? name = some value → bound'.get? name = some value) ∧
      ∀ slot ∈ slots, bound'.get? (p.slotText slot) = some (identifier (p.slotText slot)) := by
  induction slots generalizing bound with
  | nil => exact ⟨bound, rfl, hbound, fun _ _ h => h, nofun⟩
  | cons slot slots ih =>
    obtain ⟨⟨hname, hne⟩, hslots⟩ := List.forall_mem_cons.1 hslots
    rw [List.map_cons]
    generalize htext : p.slotText slot = name at hname hne ⊢
    cases hknown : bound.get? name with
    | none =>
      obtain ⟨bound', hbind, hbound', hkeep, hall⟩ := ih (hbound.insert hne) hslots
      have hstep (found : List (Nat × Text)) : p.bindSlots bound ((slot, identifier name) :: found) =
          p.bindSlots (bound.insert name (identifier name)) found := by
        simp [bindSlots, hname, hknown]
      have hkept : bound'.get? name = some (identifier name) := by
        refine hkeep _ _ ?_
        rw [SortedMap.get?_insert, if_pos rfl]
      refine ⟨bound', by rw [hstep, hbind], hbound', fun other value h => hkeep _ _ ?_, ?_⟩
      · have hother : other ≠ name := by
          rintro rfl
          rw [hknown] at h
          cases h
        rw [SortedMap.get?_insert, if_neg hother, h]
      · exact List.forall_mem_cons.2 ⟨by rw [htext, hkept], hall⟩
    | some known =>
      obtain rfl := hbound.value name known hknown
      obtain ⟨bound', hbind, hbound', hkeep, hall⟩ := ih hbound hslots
      have hstep (found : List (Nat × Text)) : p.bindSlots bound ((slot, identifier name) :: found) =
          p.bindSlots bound found := by
        simp [bindSlots, hname, hknown]
      exact ⟨bound', by rw [hstep, hbind], hbound', hkeep,
        List.forall_mem_cons.2 ⟨by rw [htext, hkeep _ _ hknown], hall⟩⟩

lemma zip_map_take {α β : Type} (g : α → β) (n : Nat) (as : List α) :
    as.zip ((as.take n).map g) = (as.take n).map fun a => (a, g a) := by
  induction as generalizing n with
  | nil => simp
  | cons a as ih =>
    cases n with
    | zero => rfl
    | succ n => rw [List.take_succ_cons, List.map_cons, List.zip_cons_cons, ih, List.map_cons]

lemma identifiersOf_eq {t : Text} {m : Match} {n : Nat} {f : Nat → Text}
    (h : m.captures.mapM (fun s => Attempt.demand (t.slice? s.start s.stop)) =
      .ok ((p.slots.take n).map f)) :
    p.identifiersOf t m =
      .ok (p.bindSlots .empty ((p.slots.take n).map fun slot => (slot, f slot))) := by
  rw [identifiersOf, h, ← zip_map_take]
  rfl

lemma locate_of_head? {t : Text} {m : Match} (hfirst : ((matcher p.pieces).matchesIn t).head? = some m)
    (hidentifiers : p.identifiersOf t m = .ok (some bound)) : p.locate t = .ok (m.span, bound) := by
  obtain ⟨ms, hms⟩ := List.head?_eq_some_iff.1 hfirst
  rw [locate, hms, List.findSomeM?]
  simp only [hidentifiers]
  rfl

/-- A written prompt is located where it stands, with the identifiers that it was written with. -/
theorem locate_written {t before after : Text} {us : List Text} {escaped : Bool}
    (hp : p.ComesOf identifier t us)
    (hfirst : ∀ m ∈ (matcher p.pieces).matchesIn
        (before ++ inAlphabet escaped (p.written identifier) ++ after), before.size ≤ m.span.start) :
    ∃ bound, p.locate (before ++ inAlphabet escaped (p.written identifier) ++ after) =
        .ok (⟨before.size, before.size + (inAlphabet escaped (p.written identifier)).size⟩, bound) ∧
      Binds bound identifier ∧
      ∀ slot ∈ p.slots.take us.length,
        bound.get? (p.slotText slot) = some (identifier (p.slotText slot)) := by
  have hwritten : inAlphabet escaped (p.written identifier) =
      filled (fun slot => identifier (p.slotText slot)) escaped t us p.slots := by
    rw [hp.written, filled]
  obtain ⟨spans, hspans, hfound⟩ := @follows_filled (fun slot => identifier (p.slotText slot)) t us
    p.slots [] escaped hp.plain hp.slots hp.assigned before after
  rw [← hwritten] at hspans hfound
  generalize inAlphabet escaped (p.written identifier) = region at hfirst hspans hfound ⊢
  rw [List.append_assoc] at hfirst hfound ⊢
  have hmatch : (matcher p.pieces).matchHere? (between before (region ++ after) []) =
      some ⟨⟨before.size, before.size + region.size⟩, spans⟩ := by
    rw [hp.pieces]
    exact matchHere?_of_follows hspans
  have hempty : Binds .empty identifier := ⟨rfl, fun _ _ h => by cases h⟩
  obtain ⟨bound, hbind, hbinds, -, hall⟩ := bindSlots_eq_some hempty hp.named
  refine ⟨bound, locate_of_head? (head?_matchesIn hmatch hfirst) ?_, hbinds, hall⟩
  rw [identifiersOf_eq hfound, hbind]

end Prompt
end Retouch
