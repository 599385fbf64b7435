import Retouch.Literal.Render
import Retouch.Proofs.Attempt
import Retouch.Proofs.Literal.Division
import Retouch.Proofs.Text.Found
import Retouch.Proofs.Text.Place

/-! Content that cannot be rendered. A hole that no brace closes is a fault, and so is the quote of the literal in
the expression of a hole. Rendering reports the first hole that is not closed, or else the first quote, with the
line and the column at which it stands. -/
namespace Retouch

namespace Segment

/-- A character stands in the expression of a hole. -/
def Holds (quote : Char) : Segment → Prop
  | .text _ => False
  | .hole expr _ => quote ∈ expr

instance (quote : Char) : DecidablePred (Holds quote)
  | .text _ => inferInstanceAs (Decidable False)
  | .hole expr _ => inferInstanceAs (Decidable (quote ∈ expr))

end Segment

namespace Literal

open Segment

/-- A part of the content that keeps it from being rendered, with what comes before and after it. -/
inductive Fault (style : Style) (content : Text) : (front delimiter rest : Text) → Prop
  /-- Text and whole holes come before a hole that no brace closes. -/
  | unclosed {before : List Segment} {front rest : Text} : Divides before front → ¬Escaping front →
    Unclosed rest → content = front ++ '$' :: '\x7b' :: rest →
    Fault style content front ['$', '\x7b'] rest
  /-- All holes are closed, and no expression holds the quote before here. -/
  | quote {quote : Char} {before after : List Segment} {inner rest : Text} {offset : Nat} :
    style.quote? = some quote →
    Divides (before ++ .hole (inner ++ quote :: rest) offset :: after) content →
    (∀ s ∈ before, ¬s.Holds quote) → quote ∉ inner →
    Fault style content (before.flatMap Segment.source ++ '$' :: '\x7b' :: inner) [quote]
      (rest ++ '\x7d' :: after.flatMap Segment.source)

variable {style : Style} {content front delimiter rest : Text} {identifiers : Identifiers}
  {escaped : Bool} {halt : Halt} {s : Segment} {segments : List Segment} {p : Place}

lemma Fault.content_eq (h : Fault style content front delimiter rest) :
    content = front ++ (delimiter ++ rest) := by
  cases h with
  | unclosed hbefore hopen hrest hcontent => rw [hcontent]; rfl
  | quote hstyle hdivides hbefore hinner => rw [← hdivides.source]; simp [Segment.source]

/-- No line ends within what is reported. -/
lemma Fault.not_mem (h : Fault style content front delimiter rest) : '\n' ∉ delimiter := by
  cases h with
  | unclosed => decide
  | quote hstyle => cases style <;> cases hstyle <;> decide

/-! ## One segment -/

/-- A segment is refused for the first quote in its expression. -/
lemma renderSegment_eq_error_iff : renderSegment content style identifiers s = .error halt ↔
    ∃ quote inner rest offset, style.quote? = some quote ∧ s = .hole (inner ++ quote :: rest) offset ∧
      quote ∉ inner ∧
      halt = .skip (unescaped content (offset + Text.size inner) (String.ofList [quote])) := by
  cases s with
  | text t => simp [renderSegment]
  | hole expr offset =>
    rw [renderSegment]
    cases hstyle : style.quote? with
    | none => simp
    | some quote =>
      dsimp only
      cases hfind : expr.find? [quote] with
      | none =>
        have hmem := Text.find?_singleton_eq_none_iff.1 hfind
        refine iff_of_false nofun ?_
        rintro ⟨d, inner, rest, n, hd, hs, -⟩
        cases hs
        cases hd
        simp at hmem
      | some pos =>
        obtain ⟨inner, rest, rfl, hinner, rfl⟩ := Text.find?_singleton_eq_some_iff.1 hfind
        constructor
        · intro h
          cases h
          exact ⟨quote, inner, rest, offset, rfl, rfl, hinner, rfl⟩
        · rintro ⟨d, inner', rest', n, hd, hs, hinner', rfl⟩
          cases hd
          obtain ⟨hexpr, rfl⟩ := Segment.hole.inj hs
          have hsame := Text.find?_append hinner' rest'
          rw [← hexpr, hfind, Option.some.injEq] at hsame
          rw [hsame]
          rfl

lemma exists_renderSegment_eq_ok_iff :
    (∃ written, renderSegment content style identifiers s = .ok written) ↔
      ∀ quote, style.quote? = some quote → ¬s.Holds quote := by
  cases hs : renderSegment content style identifiers s with
  | ok written =>
    refine iff_of_true ⟨written, rfl⟩ fun quote hstyle hholds => ?_
    cases s with
    | text t => exact hholds
    | hole expr offset =>
      obtain ⟨inner, rest, rfl, hinner⟩ := List.eq_append_cons_of_mem hholds
      have herror := (@renderSegment_eq_error_iff style content identifiers _ _).2
        ⟨quote, inner, rest, offset, hstyle, rfl, hinner, rfl⟩
      rw [hs] at herror
      cases herror
  | error halt =>
    refine iff_of_false nofun fun h => ?_
    obtain ⟨quote, inner, rest, offset, hstyle, rfl, -⟩ := renderSegment_eq_error_iff.1 hs
    exact h quote hstyle (List.mem_append_right inner List.mem_cons_self)

/-! ## All segments -/

lemma render_eq_error_iff : render content style identifiers escaped = .error halt ↔
    split content = .error halt ∨ ∃ segments, split content = .ok segments ∧
      segments.mapM (renderSegment content style identifiers) = .error halt := by
  rw [render, Attempt.bind_eq_error_iff]
  refine or_congr_right (exists_congr fun segments => and_congr_right fun _ => ?_)
  rw [Attempt.bind_eq_error_iff]
  refine ⟨fun h => h.resolve_right ?_, .inl⟩
  rintro ⟨pieces, -, h⟩
  cases h

/-- Where a line and a column are reported, they are those of the place. -/
lemma eq_skip_iff {delimiter : String} : halt = .skip (unescaped (front ++ rest) front.size delimiter) ↔
    ∃ p : Place, p.IsAfter front ∧ halt = .skip (.looseDelimiter delimiter p.line p.column) := by
  constructor
  · rintro rfl
    exact ⟨_, Text.isAfter_place front rest, rfl⟩
  · rintro ⟨p, hp, rfl⟩
    rw [Text.eq_place_of_isAfter hp rest]
    rfl

lemma render_eq_error_iff_fault : render content style identifiers escaped = .error halt ↔
    ∃ front delimiter rest, Fault style content front delimiter rest ∧
      halt = .skip (unescaped content front.size (String.ofList delimiter)) := by
  have hsize (before : List Segment) (inner : Text) :
      Text.size (before.flatMap Segment.source) + 2 + inner.size =
        Text.size (before.flatMap Segment.source ++ '$' :: '\x7b' :: inner) := by
    have hdollar : ('$' : Char).utf8Size = 1 := rfl
    have hbrace : ('\x7b' : Char).utf8Size = 1 := rfl
    rw [Text.size_append, Text.size_cons, Text.size_cons]
    omega
  rw [render_eq_error_iff]
  constructor
  · rintro (h | ⟨segments, hsplit, h⟩)
    · obtain ⟨before, front, rest, hbefore, hopen, hrest, hcontent, rfl⟩ := split_eq_error_iff.1 h
      exact ⟨front, _, rest, .unclosed hbefore hopen hrest hcontent, rfl⟩
    · obtain ⟨before, s, after, rfl, hbefore, hs⟩ := Attempt.mapM_eq_error_iff.1 h
      obtain ⟨quote, inner, rest, offset, hstyle, rfl, hinner, rfl⟩ := renderSegment_eq_error_iff.1 hs
      have hdivides := divides_of_split hsplit
      obtain ⟨-, -, rfl⟩ := hdivides.fits before _ after rfl
      refine ⟨_, _, _, .quote hstyle hdivides (fun s hs => ?_) hinner, by rw [hsize]⟩
      exact exists_renderSegment_eq_ok_iff.1 (hbefore s hs) quote hstyle
  · rintro ⟨front, delimiter, rest, hfault, rfl⟩
    cases hfault with
    | unclosed hbefore hopen hrest hcontent =>
      exact .inl (split_eq_error_iff.2 ⟨_, _, _, hbefore, hopen, hrest, hcontent, rfl⟩)
    | quote hstyle hdivides hbefore hinner =>
      obtain ⟨-, -, rfl⟩ := hdivides.fits _ _ _ rfl
      refine .inr ⟨_, split_of_divides hdivides, Attempt.mapM_eq_error_iff.2
        ⟨_, _, _, rfl, fun s hs => ?_, renderSegment_eq_error_iff.2
          ⟨_, _, _, _, hstyle, rfl, hinner, by rw [hsize]⟩⟩⟩
      refine exists_renderSegment_eq_ok_iff.2 fun quote hquote => ?_
      obtain rfl := Option.some.inj (hstyle.symm.trans hquote)
      exact hbefore s hs

lemma exists_fault_iff : (∃ front delimiter rest, Fault style content front delimiter rest) ↔
    (∃ before front rest, Divides before front ∧ ¬Escaping front ∧ Unclosed rest ∧
      content = front ++ '$' :: '\x7b' :: rest) ∨
    ∃ segments quote, Divides segments content ∧ style.quote? = some quote ∧
      ∃ s ∈ segments, s.Holds quote := by
  constructor
  · rintro ⟨_, _, _, hfault⟩
    cases hfault with
    | unclosed hbefore hopen hrest hcontent => exact .inl ⟨_, _, _, hbefore, hopen, hrest, hcontent⟩
    | quote hstyle hdivides hbefore hinner =>
      exact .inr ⟨_, _, hdivides, hstyle, _, List.mem_append_right _ List.mem_cons_self,
        List.mem_append_right _ List.mem_cons_self⟩
  · rintro (⟨before, front, rest, hbefore, hopen, hrest, hcontent⟩ | ⟨segments, quote, hdivides, hstyle, h⟩)
    · exact ⟨_, _, _, .unclosed hbefore hopen hrest hcontent⟩
    · -- the first hole that holds the quote, and the first quote in it
      obtain ⟨s, hs⟩ : ∃ s, segments.find? (Holds quote ·) = some s := by
        obtain ⟨s, hmem, hholds⟩ := h
        exact Option.isSome_iff_exists.1 (List.find?_isSome.2 ⟨s, hmem, decide_eq_true hholds⟩)
      obtain ⟨hholds, before, after, rfl, hfirst⟩ := List.find?_eq_some_iff_append.1 hs
      cases s with
      | text t => exact absurd (of_decide_eq_true hholds) id
      | hole expr offset =>
        obtain ⟨inner, rest, rfl, hinner⟩ := List.eq_append_cons_of_mem (of_decide_eq_true hholds)
        exact ⟨_, _, _, .quote hstyle hdivides (fun s hs => by simpa using hfirst s hs) hinner⟩

/-- Rendering fails exactly if a hole is not closed, or else an expression holds the quote of the literal. It
reports the fault by its line and column, where what it names stands, and no other part of the content has
that place. -/
theorem render_reports_fault :
    (∀ halt, render content style identifiers escaped = .error halt ↔
      ∃ front delimiter rest, Fault style content front delimiter rest ∧ ∃ p : Place, p.IsAfter front ∧
        halt = .skip (.looseDelimiter (String.ofList delimiter) p.line p.column)) ∧
    ((∃ halt, render content style identifiers escaped = .error halt) ↔
      (∃ before front rest, Divides before front ∧ ¬Escaping front ∧ Unclosed rest ∧
        content = front ++ '$' :: '\x7b' :: rest) ∨
      ∃ segments quote, Divides segments content ∧ style.quote? = some quote ∧
        ∃ s ∈ segments, s.Holds quote) ∧
    ∀ front delimiter rest (p : Place), Fault style content front delimiter rest → p.IsAfter front →
      (∃ line, content.fromPlace? p = some line ∧ delimiter <+: line) ∧
      ∀ front' rest', content = front' ++ rest' → p.IsAfter front' → front' = front := by
  refine ⟨fun halt => ?_, ?_, fun front delimiter rest p hfault hp => ⟨?_, ?_⟩⟩
  · rw [render_eq_error_iff_fault]
    refine exists_congr fun front => exists_congr fun delimiter => exists_congr fun rest =>
      and_congr_right fun hfault => ?_
    rw [hfault.content_eq, eq_skip_iff]
  · rw [← exists_fault_iff]
    constructor
    · rintro ⟨halt, h⟩
      obtain ⟨front, delimiter, rest, hfault, -⟩ := render_eq_error_iff_fault.1 h
      exact ⟨front, delimiter, rest, hfault⟩
    · rintro ⟨front, delimiter, rest, hfault⟩
      exact ⟨_, render_eq_error_iff_fault.2 ⟨front, delimiter, rest, hfault, rfl⟩⟩
  · rw [hfault.content_eq, Text.fromPlace?_of_isAfter hp,
      Text.takeWhile_append_of_not_mem hfault.not_mem]
    exact ⟨_, rfl, List.prefix_append _ _⟩
  · intro front' rest' hcontent hp'
    exact Text.eq_of_isAfter (hcontent.symm.trans hfault.content_eq) hp' hp

/-- The quote is the seventh character of the second line. -/
example : render "line one\nuse $\x7b\x60x\x60\x7d".toList .template .empty false =
    .error (.skip (.looseDelimiter "\x60" 2 7)) := by rfl

end Literal
end Retouch
