import Mathlib.Tactic.ByContra
import Retouch.Proofs.Prompt.Located
import Retouch.Proofs.Prompt.Tolerance

/-! Occurrences of a prompt: its pieces, each in a form that the matcher takes, with a name in each gap. A
prompt is located at an occurrence whose names agree, with these names. One is missed only if the search
has passed over its beginning for a match whose names disagree. -/
namespace Retouch

namespace Prompt

open Pattern Cursor Literal

/-- Text that fills a gap. -/
def IsName (t : Text) : Prop := t ≠ [] ∧ ∀ c ∈ t, (CharClass.name []).contains c = true

/-- The pieces stand in the source one after the other, with names between them. -/
inductive Occurs : (pieces names : List Text) → Text → Prop
  | last {piece m : Text} : Stands piece m → Occurs [piece] [] m
  | gap {piece name m m' : Text} {pieces names : List Text} : Stands piece m → IsName name →
    Occurs pieces names m' → Occurs (piece :: pieces) (name :: names) (m ++ (name ++ m'))

variable {p : Prompt} {pieces names : List Text} {front m rest t : Text} {spans : List Span}

lemma Occurs.ne_nil (h : Occurs pieces names m) : pieces ≠ [] := by
  cases h <;> exact List.cons_ne_nil _ _

/-- Only one piece can stand where there is no text. -/
lemma Occurs.exists_eq_singleton (h : Occurs pieces names []) : ∃ piece, pieces = [piece] := by
  generalize hm : ([] : Text) = m at h
  cases h with
  | last => exact ⟨_, rfl⟩
  | gap _ hname =>
    have hempty := List.append_eq_nil_iff.1 (List.append_eq_nil_iff.1 hm.symm).2
    exact absurd hempty.1 hname.1

lemma Occurs.of_singleton {piece : Text} (h : Occurs [piece] names m) : names = [] := by
  cases h with
  | last => rfl
  | gap _ _ h => exact absurd rfl h.ne_nil

/-! ## The matcher -/

lemma takes_nameGroup : nameGroup.Takes front m rest spans ↔
    IsName m ∧ spans = [⟨front.size, front.size + m.size⟩] := by
  have hlength : 1 ≤ m.length ↔ m ≠ [] := List.length_pos_iff
  simp only [nameGroup, oneOrMore, Takes, IsName, hlength]
  constructor
  · rintro ⟨_, ⟨hm, hne, -, rfl⟩, rfl⟩
    exact ⟨⟨hne, hm⟩, rfl⟩
  · rintro ⟨⟨hne, hm⟩, rfl⟩
    exact ⟨[], ⟨hm, hne, fun n hn => absurd hn (Option.not_mem_none n), rfl⟩, rfl⟩

lemma parts_singleton (piece : Text) : parts [piece] = piece.map tolerant := by simp [parts]

/-- What the matcher takes is an occurrence, and the names are captured. -/
theorem occurs_of_takes (hne : pieces ≠ []) (h : (all (parts pieces)).Takes front m rest spans) :
    ∃ names, Occurs pieces names m ∧
      spans.mapM (fun s => Attempt.demand (Text.slice? (front ++ m ++ rest) s.start s.stop)) =
        .ok names := by
  induction pieces generalizing front m spans with
  | nil => exact absurd rfl hne
  | cons piece pieces ih =>
    cases pieces with
    | nil =>
      rw [parts_singleton] at h
      obtain ⟨hpiece, rfl⟩ := takes_text.1 h
      exact ⟨[], .last hpiece, rfl⟩
    | cons next pieces =>
      rw [parts_cons_of_ne_nil (List.cons_ne_nil _ _)] at h
      obtain ⟨m₁, m₂, spans₁, spans₂, hpiece, hlater, rfl, rfl⟩ := takes_all_append.1 h
      obtain ⟨name, m₃, spans₂, spans₃, hname, hrest, rfl, rfl⟩ := takes_all_cons.1 hlater
      obtain ⟨hstands, rfl⟩ := takes_text.1 hpiece
      obtain ⟨hfill, rfl⟩ := takes_nameGroup.1 hname
      obtain ⟨names, hoccurs, hfound⟩ := ih (List.cons_ne_nil _ _) hrest
      refine ⟨name :: names, .gap hstands hfill hoccurs, ?_⟩
      have hslice : Text.slice? (front ++ m₁ ++ name ++ m₃ ++ rest) (Text.size (front ++ m₁))
          (Text.size (front ++ m₁) + name.size) = some name := by
        rw [List.append_assoc _ m₃]
        exact Text.slice?_append (front ++ m₁) name _
      have htext : front ++ (m₁ ++ (name ++ m₃)) ++ rest = front ++ m₁ ++ name ++ m₃ ++ rest := by simp
      rw [htext]
      refine Attempt.mapM_cons_eq_ok.2 ⟨_, _, rfl, ?_, hfound⟩
      rw [hslice]
      rfl

/-- The matcher takes each occurrence. -/
theorem Occurs.takes (h : Occurs pieces names m) (front rest : Text) :
    ∃ spans, (all (parts pieces)).Takes front m rest spans := by
  induction h generalizing front with
  | last hpiece => exact ⟨[], by rw [parts_singleton]; exact takes_text.2 ⟨hpiece, rfl⟩⟩
  | @gap piece name m m' pieces names hpiece hname hlater ih =>
    obtain ⟨spans, hspans⟩ := ih (front ++ m ++ name)
    rw [parts_cons_of_ne_nil hlater.ne_nil]
    have hgap := takes_all_cons.2 ⟨name, m', _, spans, takes_nameGroup.2 ⟨hname, rfl⟩, hspans, rfl, rfl⟩
    exact ⟨_, takes_all_append.2 ⟨m, name ++ m', [], _, takes_text.2 ⟨hpiece, rfl⟩, hgap, rfl, rfl⟩⟩

/-! ## Names of slots -/

/-- Some slots hold an identifier, and one of them with a given name holds a given one. -/
def Holds (p : Prompt) (found : List (Nat × Text)) (name identifier : Text) : Prop :=
  ∃ slot, (slot, identifier) ∈ found ∧ p.slotNames.get? slot = some name

/-- Slots of one name hold one identifier. -/
def Agrees (p : Prompt) (found : List (Nat × Text)) : Prop :=
  ∀ name identifier identifier', p.Holds found name identifier → p.Holds found name identifier' →
    identifier = identifier'

variable {found : List (Nat × Text)} {bound bound' : Identifiers} {name identifier : Text}

lemma holds_cons {slot : Nat} {value : Text} : p.Holds ((slot, value) :: found) name identifier ↔
    (identifier = value ∧ p.slotNames.get? slot = some name) ∨ p.Holds found name identifier := by
  constructor
  · rintro ⟨slot', hmem, hname⟩
    rcases List.mem_cons.1 hmem with heq | hmem
    · obtain ⟨rfl, rfl⟩ := Prod.mk.inj heq
      exact .inl ⟨rfl, hname⟩
    · exact .inr ⟨slot', hmem, hname⟩
  · rintro (⟨rfl, hname⟩ | ⟨slot', hmem, hname⟩)
    · exact ⟨slot, List.mem_cons_self, hname⟩
    · exact ⟨slot', List.mem_cons_of_mem _ hmem, hname⟩

/-- What is bound in the end was bound before, or is held by a slot. -/
lemma get?_of_bindSlots (h : p.bindSlots bound found = some bound') :
    bound'.get? name = some identifier ↔
      bound.get? name = some identifier ∨ p.Holds found name identifier := by
  induction found generalizing bound with
  | nil =>
    obtain rfl : bound = bound' := by simpa [bindSlots] using h
    simp [Holds]
  | cons pair found ih =>
    obtain ⟨slot, value⟩ := pair
    rw [bindSlots] at h
    rw [holds_cons]
    split at h
    · next hslot => simp [ih h, hslot]
    · next name' hslot =>
      split at h
      · next hnone =>
        rw [ih h, SortedMap.get?_insert, hslot]
        by_cases hname : name = name'
        · subst hname
          simp [hnone, eq_comm]
        · simp [hname, Ne.symm hname]
      · next known hknown =>
        split at h
        · next hsame =>
          rw [ih h, hslot]
          constructor
          · rintro (hbound | hheld)
            · exact .inl hbound
            · exact .inr (.inr hheld)
          · rintro (hbound | ⟨rfl, hname⟩ | hheld)
            · exact .inl hbound
            · obtain rfl := Option.some.inj hname
              exact .inl (hsame ▸ hknown)
            · exact .inr hheld
        · cases h

/-- Identifiers that agree with each other and with what is bound are bound. -/
lemma exists_bindSlots (h : ∀ name identifier identifier',
      (bound.get? name = some identifier ∨ p.Holds found name identifier) →
      (bound.get? name = some identifier' ∨ p.Holds found name identifier') →
      identifier = identifier') :
    ∃ bound', p.bindSlots bound found = some bound' := by
  induction found generalizing bound with
  | nil => exact ⟨bound, rfl⟩
  | cons pair found ih =>
    obtain ⟨slot, value⟩ := pair
    simp only [holds_cons] at h
    rw [bindSlots]
    split
    · next hslot => exact ih (by simpa [hslot] using h)
    · next name hslot =>
      split
      · next hnone =>
        refine ih fun name' identifier identifier' hfirst hsecond => ?_
        have hcases {identifier : Text}
            (hbound : (bound.insert name value).get? name' = some identifier ∨
              p.Holds found name' identifier) :
            bound.get? name' = some identifier ∨
              (identifier = value ∧ p.slotNames.get? slot = some name') ∨
                p.Holds found name' identifier := by
          rw [SortedMap.get?_insert] at hbound
          split at hbound
          · next hname =>
            subst hname
            rcases hbound with hvalue | hheld
            · exact .inr (.inl ⟨(Option.some.inj hvalue).symm, hslot⟩)
            · exact .inr (.inr hheld)
          · exact hbound.imp_right .inr
        exact h name' identifier identifier' (hcases hfirst) (hcases hsecond)
      · next known hknown =>
        have hsame : known = value := h name known value (.inl hknown) (.inr (.inl ⟨rfl, hslot⟩))
        rw [if_pos hsame]
        refine ih fun name' identifier identifier' hfirst hsecond => ?_
        exact h name' identifier identifier' (hfirst.imp_right .inr) (hsecond.imp_right .inr)

/-- Slots are bound exactly if they agree. -/
lemma bindSlots_ne_none_iff : p.bindSlots .empty found ≠ none ↔ p.Agrees found := by
  have hempty (name identifier : Text) : (.empty : Identifiers).get? name ≠ some identifier := nofun
  constructor
  · intro h name identifier identifier' hfirst hsecond
    obtain ⟨bound, hbound⟩ := Option.ne_none_iff_exists'.1 h
    have hget := (get?_of_bindSlots hbound).2 (.inr hfirst)
    rw [(get?_of_bindSlots hbound).2 (.inr hsecond)] at hget
    exact (Option.some.inj hget).symm
  · intro h
    obtain ⟨bound, hbound⟩ := @exists_bindSlots p found .empty fun name identifier identifier' h₁ h₂ =>
      h name identifier identifier' (h₁.resolve_left (hempty _ _)) (h₂.resolve_left (hempty _ _))
    rw [hbound]
    exact nofun

/-! ## Where a prompt is located -/

/-- The prompt stands at a span of a text, with some names in its gaps. -/
def OccursAt (p : Prompt) (t : Text) (s : Span) (names : List Text) : Prop :=
  ∃ front m rest, t = front ++ m ++ rest ∧ Occurs p.pieces names m ∧
    s = ⟨front.size, front.size + m.size⟩

/-- The search holds a position in a match whose names disagree. -/
def Hides (p : Prompt) (t : Text) (n : Nat) : Prop :=
  ∃ M ∈ (matcher p.pieces).matchesIn t, M.Holds n ∧ p.identifiersOf t M = .ok none

variable {M : Match} {s : Span}

/-- A match is an occurrence, and what it binds are the names of it. -/
lemma exists_occursAt (hne : p.pieces ≠ []) (h : M ∈ (matcher p.pieces).matchesIn t) :
    ∃ names, p.OccursAt t M.span names ∧
      p.identifiersOf t M = .ok (p.bindSlots .empty (p.slots.zip names)) := by
  obtain ⟨front, m, rest, rfl, htakes, hspan⟩ := takesIn_of_mem_matchesIn h
  obtain ⟨names, hoccurs, hfound⟩ := occurs_of_takes hne htakes
  refine ⟨names, ⟨front, m, rest, rfl, hoccurs, hspan⟩, ?_⟩
  rw [identifiersOf, hfound]
  rfl

/-- What the match binds, if its names agree. -/
def boundBy? (p : Prompt) (t : Text) (M : Match) : Option (Span × Identifiers) :=
  (p.identifiersOf t M).toOption.join.map (M.span, ·)

/-- The first match whose names agree is what is located. -/
lemma locate_eq (hne : p.pieces ≠ []) : p.locate t =
    .orSkip (((matcher p.pieces).matchesIn t).findSome? (p.boundBy? t)) (.noMatch p.id) := by
  have hplace : ∀ M ∈ (matcher p.pieces).matchesIn t,
      (do return (← p.identifiersOf t M).map (M.span, ·) : Attempt (Option (Span × Identifiers))) =
        .ok (p.boundBy? t M) := by
    intro M hM
    obtain ⟨names, -, hbound⟩ := exists_occursAt hne hM
    rw [boundBy?, hbound]
    rfl
  rw [locate, Attempt.findSomeM?_of_ok hplace]
  rfl

lemma boundBy?_eq_some {bound : Identifiers} :
    p.boundBy? t M = some (s, bound) ↔ M.span = s ∧ p.identifiersOf t M = .ok (some bound) := by
  rw [boundBy?]
  cases p.identifiersOf t M with
  | error e => simp [Except.toOption]
  | ok o => cases o <;> simp [Except.toOption]

lemma locate_eq_ok (hne : p.pieces ≠ []) {bound : Identifiers} (h : p.locate t = .ok (s, bound)) :
    ∃ M ∈ (matcher p.pieces).matchesIn t, M.span = s ∧ p.identifiersOf t M = .ok (some bound) := by
  rw [locate_eq hne] at h
  cases hfound : ((matcher p.pieces).matchesIn t).findSome? (p.boundBy? t) with
  | none =>
    rw [hfound] at h
    cases h
  | some found =>
    rw [hfound] at h
    obtain rfl : found = (s, bound) := Except.ok.inj h
    obtain ⟨M, hM, hbound⟩ := List.exists_of_findSome?_eq_some hfound
    exact ⟨M, hM, boundBy?_eq_some.1 hbound⟩

/-- A match whose names agree is enough. -/
lemma exists_locate (hne : p.pieces ≠ []) (hM : M ∈ (matcher p.pieces).matchesIn t)
    (h : p.identifiersOf t M ≠ .ok none) : ∃ found, p.locate t = .ok found := by
  obtain ⟨names, -, hbound⟩ := exists_occursAt hne hM
  have hagrees : p.bindSlots .empty (p.slots.zip names) ≠ none := fun hnone => h (by rw [hbound, hnone])
  obtain ⟨bound, hsome⟩ := Option.ne_none_iff_exists'.1 hagrees
  have hfound : ((matcher p.pieces).matchesIn t).findSome? (p.boundBy? t) ≠ none := by
    intro hnone
    have hbound' := List.findSome?_eq_none_iff.1 hnone M hM
    rw [boundBy?_eq_some.2 ⟨rfl, by rw [hbound, hsome]⟩] at hbound'
    cases hbound'
  obtain ⟨found, hfound⟩ := Option.ne_none_iff_exists'.1 hfound
  exact ⟨found, by rw [locate_eq hne, hfound]; rfl⟩

/-- An occurrence whose beginning is not hidden is enough. -/
lemma exists_locate_of_occursAt (h : p.OccursAt t s names) (hhides : ¬p.Hides t s.start) :
    ∃ found, p.locate t = .ok found := by
  obtain ⟨front, m, rest, rfl, hoccurs, rfl⟩ := h
  obtain ⟨spans, htakes⟩ := hoccurs.takes front rest
  by_cases hempty : ∃ rest' spans', (matcher p.pieces).Takes front [] rest' spans'
  · -- Without gaps, all matches are alike.
    obtain ⟨rest', spans', hempty⟩ := hempty
    obtain ⟨names', hnone, -⟩ := occurs_of_takes hoccurs.ne_nil hempty
    obtain ⟨piece, hpieces⟩ := hnone.exists_eq_singleton
    obtain ⟨M, hM⟩ := List.exists_mem_of_ne_nil _ (matchesIn_ne_nil htakes)
    obtain ⟨names'', ⟨_, _, _, -, hsingle, -⟩, hbound⟩ := exists_occursAt hoccurs.ne_nil hM
    rw [hpieces] at hsingle
    refine exists_locate hoccurs.ne_nil hM ?_
    rw [hbound, hsingle.of_singleton, List.zip_nil_right]
    exact nofun
  · have hextent : ∀ rest' spans', ¬(matcher p.pieces).Takes front [] rest' spans' :=
      fun rest' spans' h => hempty ⟨rest', spans', h⟩
    obtain ⟨M, hM, hholds⟩ := exists_holds_matchesIn htakes hextent
    exact exists_locate hoccurs.ne_nil hM fun hnone => hhides ⟨M, hM, hholds, hnone⟩

/-- A match whose names agree is not hidden. -/
lemma not_hides (hM : M ∈ (matcher p.pieces).matchesIn t) (h : p.identifiersOf t M ≠ .ok none) :
    ¬p.Hides t M.span.start := by
  rintro ⟨N, hN, ⟨hstart, hstop⟩, hnone⟩
  have hne : M ≠ N := by
    rintro rfl
    exact h hnone
  rcases before_or_before hM hN hne with hbefore | hbefore
  · exact absurd hbefore.1 (Nat.not_lt_of_le hstart)
  · exact absurd hstop (Nat.not_lt_of_le hbefore.2)

/-- A valid prompt is located exactly if it has an occurrence whose names agree and whose beginning is
not hidden. It is then located at such an occurrence, and the names of its slots are bound; else there is
no match. -/
theorem locate_eq_ok_iff (hvalid : p.defect? = none) (t : Text) :
    ((∃ found, p.locate t = .ok found) ↔
      ∃ s names, p.OccursAt t s names ∧ p.Agrees (p.slots.zip names) ∧ ¬p.Hides t s.start) ∧
    (∀ s bound, p.locate t = .ok (s, bound) → ∃ names, p.OccursAt t s names ∧
      p.Agrees (p.slots.zip names) ∧ ∀ name identifier,
        bound.get? name = some identifier ↔ p.Holds (p.slots.zip names) name identifier) ∧
    ((∀ found, p.locate t ≠ .ok found) → p.locate t = .error (.skip (.noMatch p.id))) := by
  have hne := (of_defect?_eq_none hvalid).1
  refine ⟨⟨?_, ?_⟩, ?_, ?_⟩
  · rintro ⟨⟨s, bound⟩, hlocate⟩
    obtain ⟨M, hM, rfl, hidentifiers⟩ := locate_eq_ok hne hlocate
    obtain ⟨names, hoccurs, hbound⟩ := exists_occursAt hne hM
    have hsome := Except.ok.inj (hbound.symm.trans hidentifiers)
    refine ⟨M.span, names, hoccurs, bindSlots_ne_none_iff.1 (by rw [hsome]; exact nofun), ?_⟩
    exact not_hides hM (by rw [hidentifiers]; exact nofun)
  · rintro ⟨s, names, hoccurs, -, hhides⟩
    exact exists_locate_of_occursAt hoccurs hhides
  · intro s bound hlocate
    obtain ⟨M, hM, rfl, hidentifiers⟩ := locate_eq_ok hne hlocate
    obtain ⟨names, hoccurs, hbound⟩ := exists_occursAt hne hM
    have hsome := Except.ok.inj (hbound.symm.trans hidentifiers)
    refine ⟨names, hoccurs, bindSlots_ne_none_iff.1 (by rw [hsome]; exact nofun), ?_⟩
    intro name identifier
    rw [get?_of_bindSlots hsome]
    exact or_iff_right nofun
  · intro hnone
    rw [locate_eq hne] at hnone ⊢
    cases hfound : ((matcher p.pieces).matchesIn t).findSome? (p.boundBy? t) with
    | none => rfl
    | some found => exact absurd (by rw [hfound]; rfl) (hnone found)

/-- A prompt with a variable in two holes, and nothing but dashes around them. -/
def repeated : Prompt where
  id := "repeated"
  name := ""
  description := ""
  pieces := ["-$\x7b".toList, "\x7d-$\x7b".toList, "\x7d-".toList]
  slots := [0, 0]
  slotNames := .ofList [(0, "NAME".toList)]
  listedVariables := []
  custom := none

/-- Of three holes, the last two agree, but the search takes the first two together. -/
theorem locate_repeated :
    let source := "\x60-$\x7bA\x7d-$\x7bB\x7d-$\x7bB\x7d-\x60".toList
    repeated.defect? = none ∧ repeated.OccursAt source ⟨6, 17⟩ ["B".toList, "B".toList] ∧
      repeated.Agrees (repeated.slots.zip ["B".toList, "B".toList]) ∧ repeated.Hides source 6 ∧
      repeated.locate source = .error (.skip (.noMatch "repeated")) := by
  intro source
  have hvalid : repeated.defect? = none := by decide
  have hname : IsName "B".toList := ⟨nofun, List.forall_mem_singleton.2 (by decide)⟩
  have hoccurs : repeated.OccursAt source ⟨6, 17⟩ ["B".toList, "B".toList] := by
    refine ⟨"\x60-$\x7bA\x7d".toList, "-$\x7bB\x7d-$\x7bB\x7d-".toList, "\x60".toList, rfl, ?_, rfl⟩
    exact .gap (stands_self _) hname (.gap (stands_self _) hname (.last (stands_self _)))
  have hagrees : repeated.Agrees (repeated.slots.zip ["B".toList, "B".toList]) :=
    bindSlots_ne_none_iff.1 (by decide)
  have hlocate : repeated.locate source = .error (.skip (.noMatch "repeated")) := by decide +kernel
  refine ⟨hvalid, hoccurs, hagrees, ?_, hlocate⟩
  by_contra hhides
  obtain ⟨found, hfound⟩ := (locate_eq_ok_iff hvalid source).1.2 ⟨_, _, hoccurs, hagrees, hhides⟩
  rw [hlocate] at hfound
  cases hfound

end Prompt
end Retouch
