import Retouch.Prompt.Apply
import Retouch.Proofs.Literal.Around
import Retouch.Proofs.Prompt.Located
import Retouch.Proofs.Prompt.Rendered

/-! Prompts that are left as they are. A prompt without content of its own that stands in a template
literal is located there, and its reference text is rendered to what stands there already, in the
alphabet and with the identifiers that are found. -/
namespace Retouch.Prompt

open Literal

variable {r : Reporting} {p : Prompt} {identifier : Text → Text} {bound : Identifiers}
  {before region after source t : Text} {us : List Text} {escaped : Bool}

lemma size_append_tick (t : Text) : Text.size (t ++ ['\x60']) = t.size + 1 := by
  rw [Text.size_append]
  rfl

lemma content_eq_reference (h : p.isCustom = false) : p.content = p.reference := by
  rw [isCustom] at h
  rw [content]
  cases hcustom : p.custom with
  | none => rfl
  | some custom =>
    rw [hcustom] at h
    simpa using h

/-- The reference text is rendered to the prompt as it is written. -/
lemma render_reference (hp : p.ComesOf identifier t us) (hbound : Binds bound identifier)
    (hall : ∀ slot ∈ p.slots.take us.length,
      bound.get? (p.slotText slot) = some (identifier (p.slotText slot))) (escaped : Bool) :
    render p.reference .template bound escaped =
      .ok (inAlphabet escaped (p.written identifier)) := by
  have hkeys : [] ∉ bound.keys := fun h => SortedMap.get?_ne_none_of_mem_keys h hbound.named
  obtain ⟨segments, pieces, hsplit, hrendered, hflatten⟩ :=
    @render_pieces bound p.reference t us p.slots p.slotText
      (fun slot => identifier (p.slotText slot)) hp.plain hp.notEscaping hp.slots hkeys
      (fun slot h => ⟨hp.word slot h, hall slot h⟩) 0
  have hreference : Segment.split p.reference = .ok segments := by
    rw [Segment.split, reference, hp.pieces, hsplit]
  refine Attempt.bind_eq_ok.2 ⟨segments, hreference, Attempt.bind_eq_ok.2 ⟨pieces, hrendered, ?_⟩⟩
  rw [hp.written, ← hflatten]
  rfl

/-- What stands at the place of the prompt is what it would be brought to. -/
lemma edit?_written (hp : p.ComesOf identifier t us) (hplain : p.isCustom = false)
    (hbound : Binds bound identifier)
    (hall : ∀ slot ∈ p.slots.take us.length,
      bound.get? (p.slotText slot) = some (identifier (p.slotText slot)))
    (halphabet : escaped = true ∨ usesEscapes (p.written identifier) = false)
    (hregion : region = inAlphabet escaped (p.written identifier)) (hbefore : ¬Escaping before) :
    p.edit? (before ++ ['\x60'] ++ region ++ after)
      ⟨Text.size (before ++ ['\x60']), Text.size (before ++ ['\x60']) + region.size⟩ bound =
        .ok none := by
  have hslice := Text.slice?_append (before ++ ['\x60']) region after
  have hstyle : Style.around (before ++ ['\x60'] ++ region ++ after)
      (Text.size (before ++ ['\x60'])) = .template := by
    rw [size_append_tick]
    simpa using @around_template before (region ++ after) hbefore
  have hrendered := render_reference hp hbound hall (usesEscapes region)
  have hsame : inAlphabet (usesEscapes region) (p.written identifier) = region := by
    rw [hregion, inAlphabet_usesEscapes halphabet]
  rw [hsame] at hrendered
  rw [edit?, hslice, hstyle, content_eq_reference hplain]
  refine Attempt.bind_eq_ok.2 ⟨region, rfl, Attempt.bind_eq_ok.2 ⟨region, hrendered, ?_⟩⟩
  rw [if_pos rfl]
  rfl

/-- A prompt that stands in a template literal as its reference text has it is left as it is. -/
theorem applyAll_written (hvalid : p.defect? = none) (hplain : p.isCustom = false)
    (hnames : p.Assigns identifier) (hpieces : IsTemplate p.pieces)
    (halphabet : escaped = true ∨ usesEscapes (p.written identifier) = false)
    (hregion : region = inAlphabet escaped (p.written identifier)) (hbefore : ¬Escaping before)
    (hsource : source = before ++ '\x60' :: region ++ after)
    (hfirst : ∀ m ∈ (matcher p.pieces).matchesIn source, before.size + 1 ≤ m.span.start) :
    applyAll r source [p] =
      .ok (⟨source, r.prose p.id p.reference p.content⟩, [(p.id, .unchanged)]) := by
  have hsplit : source = before ++ ['\x60'] ++ region ++ after := by simp [hsource]
  rw [← size_append_tick, hsplit, hregion] at hfirst
  obtain ⟨t, us, hp⟩ := exists_comesOf hvalid hnames hpieces
  obtain ⟨bound, hlocate, hbound, hall⟩ := locate_written hp hfirst
  rw [← hregion, ← hsplit] at hlocate
  have hedit := @edit?_written p identifier bound before region after t us escaped hp hplain hbound
    hall halphabet hregion hbefore
  rw [← hsplit] at hedit
  have happly : p.apply r source =
      .ok (⟨source, r.prose p.id p.reference p.content⟩, .unchanged) := by
    rw [apply, hlocate]
    simp only [Attempt.settle, bind, Except.bind, hedit]
    rfl
  rw [applyAll, happly]
  simp [applyAll, bind, Except.bind, pure, Except.pure]

/-- A prompt with a variable in two holes, one of them after a dollar sign. -/
def greeting : Prompt where
  id := "greeting"
  name := ""
  description := ""
  pieces := ["Say \"hé\"\\ $$\x7b".toList, "\x7d or \x60$\x7b".toList, "\x7d!\n".toList]
  slots := [0, 0]
  slotNames := .ofList [(0, "NAME".toList)]
  listedVariables := []
  custom := none

/-- The prompt stands in a literal with its quotes, its backslash and its accent escaped. -/
theorem applyAll_greeting :
    let source := "f(\x60Say \"h\\u00e9\"\\\\ $$\x7bq$\x7d or \\\x60$\x7bq$\x7d!\n\x60)".toList
    IsTemplate greeting.pieces ∧ greeting.Assigns (fun _ => "q$".toList) ∧
      applyAll ⟨false, false⟩ source [greeting] =
        .ok (⟨source, []⟩, [("greeting", .unchanged)]) := by
  intro source
  have hplain : ∀ t ∈ ["Say \"hé\"\\ $".toList, "\x7d or \x60".toList, "\x7d!\n".toList],
      ¬['$', '\x7b'] <:+: t ∧ '\r' ∉ t ∧ ¬Escaping t := by decide +kernel
  simp only [List.forall_mem_cons] at hplain
  obtain ⟨⟨hole₁, return₁, escaping₁⟩, ⟨hole₂, return₂, escaping₂⟩, ⟨hole₃, return₃, -⟩, -⟩ := hplain
  have hpieces : IsTemplate greeting.pieces := by
    refine ⟨fun piece hpiece => ?_, fun piece hpiece => ?_, fun piece hpiece => ?_⟩
    · rcases List.mem_cons.1 hpiece with rfl | hpiece
      · exact ⟨_, by decide +kernel, ⟨hole₁, return₁⟩, escaping₁⟩
      · obtain rfl := List.mem_singleton.1 hpiece
        exact ⟨_, by decide +kernel, ⟨hole₂, return₂⟩, escaping₂⟩
    · rcases List.mem_cons.1 hpiece with rfl | hpiece
      · exact ⟨_, rfl⟩
      · obtain rfl := List.mem_singleton.1 hpiece
        exact ⟨_, rfl⟩
    · cases hpiece
      exact ⟨hole₃, return₃⟩
  have hnames : greeting.Assigns (fun _ => "q$".toList) := by
    intro slot hslot name hname
    obtain rfl : slot = 0 := by simpa [greeting] using hslot
    obtain rfl : "NAME".toList = name := Option.some.inj hname
    refine ⟨by decide, List.all_eq_true.1 (by decide +kernel), by decide, fun c hc => ?_⟩
    obtain rfl | rfl : c = 'q' ∨ c = '$' := by simpa using hc
    · exact .inl (by decide)
    · exact .inr (.inr rfl)
  have hsource : source = "f(".toList ++ '\x60' ::
      inAlphabet true (greeting.written fun _ => "q$".toList) ++ "\x60)".toList := by
    decide +kernel
  have hfirst : ∀ m ∈ (matcher greeting.pieces).matchesIn source,
      Text.size "f(".toList + 1 ≤ m.span.start := by decide +kernel
  exact ⟨hpieces, hnames, applyAll_written rfl rfl hnames hpieces (.inl rfl) rfl
    (by decide +kernel) hsource hfirst⟩

end Retouch.Prompt
