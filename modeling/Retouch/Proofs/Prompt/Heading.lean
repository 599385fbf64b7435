import Retouch.Proofs.Text.Lines
import Retouch.Prompt.Override

/-! A heading before the text of an override. A file with a heading is read by its lines, which are joined
again below the heading; a file without one is left as it is. On a text whose lines end in single line feeds
the two agree up to a line feed at its very end, which only the second keeps. -/
namespace Retouch.Prompt.Override

variable {block t : Text} {heading : Heading}

/-- A heading as it is written: its lines between two fences. -/
structure IsBlock (block : Text) (heading : Heading) : Prop where
  lines : ∃ opening inner closing, block.lines = opening :: (inner ++ [closing]) ∧
    isFence opening = true ∧ (∀ line ∈ inner, isFence line = false) ∧ isFence closing = true ∧
    readHeading (Text.join ['\n'] inner) = .ok heading
  ended : block.getLast? = some '\n'

/-- Below a heading, the text of an override is its lines joined again. -/
lemma parse_append (hblock : IsBlock block heading) (t : Text) :
    parse (block ++ t) = .ok ⟨heading, Text.join ['\n'] t.lines⟩ := by
  obtain ⟨opening, inner, closing, hlines, hopening, hinner, hclosing, hread⟩ := hblock.lines
  have hopen : ∀ line ∈ inner, (!isFence line) = true := by simpa using hinner
  have hdrop : (inner ++ closing :: t.lines).dropWhile (!isFence ·) = closing :: t.lines := by
    rw [List.dropWhile_append_of_pos hopen]
    simp [hclosing]
  have htake : (inner ++ closing :: t.lines).takeWhile (!isFence ·) = inner := by
    rw [List.takeWhile_append_of_pos hopen]
    simp [hclosing]
  have hall : (block ++ t).lines = opening :: (inner ++ closing :: t.lines) := by
    rw [Text.lines_append hblock.ended, hlines, List.cons_append, List.append_assoc]
    rfl
  rw [parse, hall]
  simp only [hopening, ↓reduceIte, hdrop, htake, hread]
  rfl

/-- Without a heading, an override is its text. -/
lemma parse_of_not_isFence (h : ∀ line ∈ t.lines.head?, isFence line = false) : parse t = .ok ⟨.empty, t⟩ := by
  unfold parse
  split
  · rfl
  · next first rest hlines =>
    rw [hlines] at h
    simp [h first rfl]

/-- Every heading leaves the same text below it. It is the text without a heading exactly if the lines of that
one end in single line feeds and its last line has no end; where the last line has one too, it is dropped. -/
theorem parse_append_eq_ok (h : ∀ line ∈ t.lines.head?, isFence line = false) :
    parse t = .ok ⟨.empty, t⟩ ∧
      ∃ body, (∀ block heading, IsBlock block heading → parse (block ++ t) = .ok ⟨heading, body⟩) ∧
        (body = t ↔ ¬t.HasReturn ∧ t.getLast? ≠ some '\n') ∧
        (¬t.HasReturn → t.getLast? = some '\n' → body ++ ['\n'] = t) := by
  refine ⟨parse_of_not_isFence h, Text.join ['\n'] t.lines, fun block heading hblock => parse_append hblock t,
    Text.join_lines_eq_iff, fun hreturn hlast => ?_⟩
  have hjoin := Text.join_lines hreturn
  rwa [if_pos hlast] at hjoin

/-- The heading of an override, and the line feed that its text has at its end in one file and not in the other. -/
theorem parse_append_toneHeading :
    let block := "---\nname: Tone\n---\n".toList
    let t := "Be brief.\n".toList
    parse t = .ok ⟨.empty, t⟩ ∧
      parse (block ++ t) = .ok ⟨⟨some "Tone", none, none⟩, "Be brief.".toList⟩ ∧ "Be brief.".toList ≠ t := by
  intro block t
  have hread : readHeading (Text.join ['\n'] ["name: Tone".toList]) = .ok ⟨some "Tone", none, none⟩ := by decide +kernel
  have hblock : IsBlock block ⟨some "Tone", none, none⟩ :=
    ⟨⟨_, ["name: Tone".toList], _, rfl, rfl, by decide, rfl, hread⟩, rfl⟩
  obtain ⟨hplain, body, hbody, -, hfeed⟩ := parse_append_eq_ok (t := t) (by decide)
  have hshort : body = "Be brief.".toList := by
    have happend : body ++ ['\n'] = "Be brief.".toList ++ ['\n'] :=
      hfeed (fun hreturn => absurd hreturn.mem.1 (by decide)) rfl
    exact List.append_cancel_right happend
  exact ⟨hplain, hshort ▸ hbody block _ hblock, by decide⟩

end Retouch.Prompt.Override
