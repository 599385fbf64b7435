import Retouch.Proofs.Attempt
import Retouch.Proofs.Literal.Segment
import Retouch.Proofs.Text.Found

/-! Written content is read back as it was meant: every piece of text decodes to itself, and every
hole is read as the expression written for it. -/
namespace Retouch.Literal

open Reader

section Reading

variable {style : Style} {quote : Char}

lemma items_nil : items style quote [] = some [] := by
  rw [items]
  rfl

lemma items_of_step? {t rest : Text} {read : List Item}
    (h : step? style quote t = some (read, rest)) :
    items style quote t = (items style quote rest).map (read ++ ·) := by
  cases t with
  | nil => cases h
  | cons c t =>
    rw [items, if_neg (by simp)]
    split
    · next hnone =>
      rw [h] at hnone
      cases hnone
    · next heq =>
      rw [h] at heq
      cases heq
      rfl

/-! ## Characters -/

lemma escape?_unitEscape {u : Nat} (hu : u < 0x10000) (rest : Text) :
    escape? ('u' :: (Text.hexPadded 4 u ++ rest)) = some ([u], rest) := by
  have htake : (Text.hexPadded 4 u ++ rest).take 4 = Text.hexPadded 4 u := by
    rw [Text.hexPadded_four hu]
    rfl
  have hdrop : (Text.hexPadded 4 u ++ rest).drop 4 = rest := by
    rw [Text.hexPadded_four hu]
    rfl
  have hlength : (Text.hexPadded 4 u).length = 4 := by
    rw [Text.hexPadded_four hu]
    rfl
  have hhead : (Text.hexPadded 4 u ++ rest).head? ≠ some '\x7b' := by
    rw [Text.hexPadded_four hu]
    simp
  rw [escape?, if_pos rfl, if_neg hhead, hexUnit?, htake, hdrop, if_pos hlength,
    Text.numeral?_hexPadded hu]
  rfl

lemma items_unitEscapes {us : List Nat} (hus : ∀ u ∈ us, u < 0x10000) (rest : Text) :
    items style quote (us.flatMap Text.unitEscape ++ rest) =
      (items style quote rest).map (us.map .unit ++ ·) := by
  induction us with
  | nil => simp
  | cons u us ih =>
    have hescape := escape?_unitEscape (hus u List.mem_cons_self)
      (us.flatMap Text.unitEscape ++ rest)
    have hstep : step? style quote ((u :: us).flatMap Text.unitEscape ++ rest) =
        some ([.unit u], us.flatMap Text.unitEscape ++ rest) := by
      rw [List.flatMap_cons, List.append_assoc, Text.unitEscape]
      simp only [List.cons_append, step?, ↓reduceIte, hescape, Option.map_some, List.map_cons,
        List.map_nil]
    rw [items_of_step? hstep, ih fun v hv => hus v (List.mem_cons_of_mem u hv), Option.map_map]
    rfl

/-- A character that needs no escape is read as it is, whatever the alphabet. -/
lemma items_plain (escaped : Bool) {c : Char} {rest : Text} (hslash : c ≠ '\\') (hquote : c ≠ quote)
    (hfeed : c = '\n' → style = .template) (hreturn : c ≠ '\r')
    (hdollar : c = '$' → style = .template → rest.head? ≠ some '\x7b') :
    items style quote (inAlphabet escaped [c] ++ rest) =
      (items style quote rest).map ((Text.units16 c).map .unit ++ ·) := by
  by_cases hwritten : escaped ∧ ¬ c.toNat < 128
  · have hunits : inAlphabet escaped [c] = (Text.units16 c).flatMap Text.unitEscape := by
      simp [inAlphabet, hwritten.1, toAscii, hwritten.2]
    rw [hunits, items_unitEscapes fun u hu => Text.lt_of_mem_units16 hu]
  · have hself : inAlphabet escaped [c] = [c] := by
      cases escaped with
      | false => rfl
      | true => exact inAlphabet_singleton true (by simpa using hwritten)
    have hhole : (decide (c = '$') && decide (rest.head? = some '\x7b')) = true →
        style ≠ .template := by
      simp only [Bool.and_eq_true, decide_eq_true_eq]
      exact fun h htemplate => hdollar h.1 htemplate h.2
    have hstep : step? style quote (c :: rest) = some ((Text.units16 c).map .unit, rest) := by
      simp only [step?, if_neg hslash, if_neg hquote]
      by_cases htemplate : style = .template
      · rw [if_pos htemplate, if_neg fun h => hhole h htemplate, if_neg hreturn]
      · have hline : ¬ (decide (c = '\n') || decide (c = '\r')) = true := by
          simp only [Bool.or_eq_true, decide_eq_true_eq, not_or]
          exact ⟨fun h => htemplate (hfeed h), hreturn⟩
        rw [if_neg htemplate, if_neg hline]
    rw [hself, List.singleton_append, items_of_step? hstep]

/-- An escape with a backslash and one more character is read as what it stands for. -/
lemma items_escape (escaped : Bool) {c d : Char} {rest : Text}
    (hd : d ∈ ['\\', 'n', 'r', '"', '\'', '\x60', '$']) (hcontrol : control d = c) :
    items style quote (inAlphabet escaped ['\\', d] ++ rest) =
      (items style quote rest).map ((Text.units16 c).map .unit ++ ·) := by
  have hascii : ∀ x ∈ ['\\', d], x.toNat < 128 := by
    have hall : ['\\', 'n', 'r', '"', '\'', '\x60', '$'].all (·.toNat < 128) = true := by decide
    intro x hx
    rcases List.mem_cons.1 hx with rfl | hx
    · decide
    · rw [List.mem_singleton.1 hx]
      exact of_decide_eq_true (List.all_eq_true.1 hall d hd)
  have hescape : escape? (d :: rest) = some (Text.units16 c, rest) := by
    have hall : ['\\', 'n', 'r', '"', '\'', '\x60', '$'].all fun x =>
        decide (x ≠ 'u' ∧ x ≠ 'x' ∧ isLineEnd x = false ∧ x.isDigit = false) := by decide
    obtain ⟨hu, hx, hline, hdigit⟩ := of_decide_eq_true (List.all_eq_true.1 hall d hd)
    rw [escape?, if_neg hu, if_neg hx, hline, hdigit, hcontrol]
    rfl
  have hstep : step? style quote ('\\' :: d :: rest) = some ((Text.units16 c).map .unit, rest) := by
    simp only [step?, ↓reduceIte, hescape, Option.map_some]
  rw [inAlphabet_eq_self escaped hascii]
  exact items_of_step? hstep

lemma items_encodeChar (escaped : Bool) (hstyle : style.quote? = some quote) (c : Char)
    (next : Option Char) {rest : Text} (hnext : rest.head? = some '\x7b' → next = some '\x7b') :
    items style quote (inAlphabet escaped (encodeChar style c next) ++ rest) =
      (items style quote rest).map ((Text.units16 c).map .unit ++ ·) := by
  unfold encodeChar
  split
  case h_1 => cases hstyle
  case h_2 => exact items_escape escaped (by decide) rfl
  case h_3 =>
    cases hstyle
    exact items_plain escaped (by decide) (by decide) (fun _ => rfl) (by decide) nofun
  case h_4 => exact items_escape escaped (by decide) rfl
  case h_5 => exact items_escape escaped (by decide) rfl
  case h_6 => exact items_escape escaped (by decide) rfl
  case h_7 => exact items_escape escaped (by decide) rfl
  case h_8 => exact items_escape escaped (by decide) rfl
  case h_9 =>
    cases hstyle
    split
    · exact items_escape escaped (by decide) rfl
    · next hopen =>
      refine items_plain escaped (by decide) (by decide) (by decide) (by decide) fun _ _ hhead => ?_
      exact hopen (hnext hhead)
  case h_10 _ _ hplain hslash hfeed hreturn _ hdouble hsingle htick hdollar =>
    have hquote : c ≠ quote := by
      rintro rfl
      cases style with
      | plain => exact hplain rfl
      | double => exact hdouble rfl (Option.some.inj hstyle).symm
      | single => exact hsingle rfl (Option.some.inj hstyle).symm
      | template => exact htick rfl (Option.some.inj hstyle).symm
    exact items_plain escaped hslash hquote (fun h => (hfeed h).elim) hreturn
      fun hc htemplate => (hdollar htemplate hc).elim

/-- No escape starts with a brace. -/
lemma eq_of_head?_inAlphabet {escaped : Bool} {c : Char} {t rest : Text}
    (h : (inAlphabet escaped (c :: t) ++ rest).head? = some '\x7b') : c = '\x7b' := by
  cases escaped with
  | false => simpa [inAlphabet] using h
  | true =>
    rw [inAlphabet, if_pos rfl, toAscii_cons] at h
    by_cases hc : c.toNat < 128
    · simpa [hc] using h
    · obtain ⟨u, us, hus⟩ : ∃ u us, Text.units16 c = u :: us := by
        by_cases hlt : c.toNat < 0x10000
        · exact ⟨_, _, Text.units16_of_lt hlt⟩
        · exact ⟨_, _, Text.units16_of_not_lt hlt⟩
      simp [hc, hus, Text.unitEscape] at h

lemma exists_cons_eq_encodeChar (style : Style) (c : Char) (next : Option Char) :
    ∃ x xs, encodeChar style c next = x :: xs ∧ (x = '\x7b' → c = '\x7b') := by
  unfold encodeChar
  split
  case h_1 => exact ⟨c, [], rfl, id⟩
  case h_10 => exact ⟨c, [], rfl, id⟩
  case h_9 =>
    split
    · exact ⟨_, _, rfl, by decide⟩
    · exact ⟨_, _, rfl, by decide⟩
  all_goals exact ⟨_, _, rfl, by decide⟩

lemma head?_of_head?_encode {escaped : Bool} {style : Style} {t rest : Text}
    (hrest : rest.head? ≠ some '\x7b')
    (h : (inAlphabet escaped (encode style t) ++ rest).head? = some '\x7b') :
    t.head? = some '\x7b' := by
  cases t with
  | nil => cases escaped <;> exact absurd h hrest
  | cons c t =>
    obtain ⟨x, xs, hx, hbrace⟩ := exists_cons_eq_encodeChar style c t.head?
    rw [encode, hx, List.cons_append] at h
    rw [hbrace (eq_of_head?_inAlphabet h)]
    rfl

/-- Encoded text is read as its units, before anything that could not join its last dollar sign. -/
lemma items_encode (escaped : Bool) (hstyle : style.quote? = some quote) (t : Text) {rest : Text}
    (hrest : rest.head? ≠ some '\x7b') :
    items style quote (inAlphabet escaped (encode style t) ++ rest) =
      (items style quote rest).map ((t.flatMap Text.units16).map .unit ++ ·) := by
  induction t with
  | nil => cases escaped <;> simp [encode, inAlphabet, toAscii]
  | cons c t ih =>
    rw [encode, inAlphabet_append, List.append_assoc,
      items_encodeChar escaped hstyle c t.head? (head?_of_head?_encode hrest), ih, Option.map_map,
      List.flatMap_cons]
    congr 1
    funext is
    simp

/-! ## Holes -/

lemma closing?_of_depthAfter? {depth : Nat} {expr : Text} (h : depthAfter? depth expr = some 0)
    (rest : Text) : closing? depth (expr ++ '\x7d' :: rest) = some (expr, rest) := by
  induction expr generalizing depth with
  | nil =>
    obtain rfl : depth = 0 := Option.some.inj h
    rfl
  | cons c expr ih =>
    simp only [depthAfter?] at h
    simp only [List.cons_append, closing?]
    split at h
    · next hclose =>
      split at h
      · cases h
      · next hdepth => rw [if_pos hclose, if_neg hdepth, ih h, Option.map_some]
    · next hclose => rw [if_neg hclose, ih h, Option.map_some]

/-- The first place where a mark that ends with a quote can stand is after all that lacks the quote. -/
lemma splitOnce?_go_of_not_mem {mark expr : Text} (before rest : Text) (hmark : quote ∉ mark)
    (hexpr : quote ∉ expr) :
    Text.splitOnce?.go (mark ++ [quote]) before (expr ++ (mark ++ [quote]) ++ rest) =
      some (before.reverse ++ expr, rest) := by
  induction expr generalizing before with
  | nil =>
    have hafter : Text.after? ([] ++ (mark ++ [quote]) ++ rest) (mark ++ [quote]) = some rest :=
      Text.after?_eq_some.2 rfl
    unfold Text.splitOnce?.go
    rw [hafter]
    simp
  | cons c expr ih =>
    have hafter : Text.after? (c :: expr ++ (mark ++ [quote]) ++ rest) (mark ++ [quote]) = none := by
      refine Option.eq_none_iff_forall_ne_some.2 fun r hr => ?_
      have heq : mark ++ [quote] ++ r = (c :: expr ++ mark) ++ (quote :: rest) := by
        rw [← Text.after?_eq_some.1 hr]
        simp
      have hprefix : (mark ++ [quote]) <+: (c :: expr ++ mark) :=
        List.prefix_of_prefix_length_le ⟨r, heq⟩ ⟨quote :: rest, rfl⟩ (by simp)
      have hmem : quote ∈ c :: expr ++ mark := hprefix.subset (by simp)
      rcases List.mem_append.1 hmem with hmem | hmem
      · exact hexpr hmem
      · exact hmark hmem
    unfold Text.splitOnce?.go
    rw [hafter]
    have := ih (c :: before) fun h => hexpr (List.mem_cons_of_mem c h)
    simpa using this

lemma renderHole_eq_of_ne_template (hstyle : style.quote? = some quote) (hne : style ≠ .template)
    (expr : Text) : renderHole style expr = [quote, '+', '('] ++ expr ++ [')', '+', quote] := by
  cases style with
  | plain => cases hstyle
  | double => cases hstyle; rfl
  | single => cases hstyle; rfl
  | template => exact absurd rfl hne

/-- A hole is read as one, and ends where it was meant to end. -/
lemma items_renderHole (escaped : Bool) (hstyle : style.quote? = some quote) {expr : Text}
    (hbalanced : Balanced expr) (hquote : quote ∉ expr) (rest : Text) :
    items style quote (inAlphabet escaped (renderHole style expr) ++ rest) =
      (items style quote rest).map (.hole (inAlphabet escaped expr) :: ·) := by
  have hmarks := marks_inAlphabet escaped expr
  have hstep : step? style quote (inAlphabet escaped (renderHole style expr) ++ rest) =
      some ([.hole (inAlphabet escaped expr)], rest) := by
    by_cases htemplate : style = .template
    · subst htemplate
      cases hstyle
      have hopen : inAlphabet escaped ['$', '\x7b'] = ['$', '\x7b'] :=
        inAlphabet_eq_self escaped (by simp)
      have hclose : inAlphabet escaped ['\x7d'] = ['\x7d'] :=
        inAlphabet_eq_self escaped (by simp)
      have hend := closing?_of_depthAfter? (balanced_of_marks_eq hmarks hbalanced) rest
      have hhole : renderHole .template expr = ['$', '\x7b'] ++ expr ++ ['\x7d'] := rfl
      rw [hhole, inAlphabet_append, inAlphabet_append, hopen, hclose]
      simp only [List.append_assoc, List.cons_append, List.nil_append, step?]
      rw [if_neg (by decide), if_neg (by decide), if_pos trivial, if_pos (by simp), List.tail_cons,
        hend]
      rfl
    · have hascii : quote.toNat < 128 := isMark_imp_ascii (isMark_of_quote? hstyle)
      have hslash : quote ≠ '\\' := by
        rintro rfl
        cases style <;> cases hstyle
      have hopen : inAlphabet escaped [quote, '+', '('] = [quote, '+', '('] :=
        inAlphabet_eq_self escaped (by simpa using hascii)
      have hclose : inAlphabet escaped [')', '+', quote] = [')', '+', quote] :=
        inAlphabet_eq_self escaped (by simpa using hascii)
      have hmem : quote ∉ inAlphabet escaped expr := fun h =>
        hquote ((mem_iff_of_marks_eq hmarks (isMark_of_quote? hstyle)).1 h)
      have hplus : quote ∉ [')', '+'] := by
        cases style <;> cases hstyle <;> decide
      have hend := splitOnce?_go_of_not_mem [] rest hplus hmem
      have hconcatenated : concatenated? quote ('+' :: '(' :: (inAlphabet escaped expr ++
          ([')', '+', quote] ++ rest))) = some (inAlphabet escaped expr, rest) := by
        simpa [concatenated?, Text.after?, Text.splitOnce?] using hend
      rw [renderHole_eq_of_ne_template hstyle htemplate, inAlphabet_append, inAlphabet_append, hopen,
        hclose]
      simp only [List.append_assoc, List.cons_append, List.nil_append] at hconcatenated ⊢
      simp only [step?, if_neg hslash, ↓reduceIte, if_neg htemplate, hconcatenated, Option.map_some]
  rw [items_of_step? hstep]
  rfl

end Reading

/-! ## Segments -/

/-- A segment as a reader is to see it, with identifiers in the place of variables. -/
def Part.ofSegment (identifiers : Identifiers) (escaped : Bool) : Segment → Part
  | .text t => .text t
  | .hole expr _ => .hole (inAlphabet escaped (substitute identifiers expr))

def itemsOf (identifiers : Identifiers) (escaped : Bool) : Segment → List Item
  | .text t => (t.flatMap Text.units16).map .unit
  | .hole expr _ => [.hole (inAlphabet escaped (substitute identifiers expr))]

section Segments

variable {style : Style} {quote : Char} {identifiers : Identifiers} {escaped : Bool} {content : Text}

/-- A hole is written only if the literal's quote is not in its expression. -/
lemma renderSegment_hole (hstyle : style.quote? = some quote) {expr piece : Text} {offset : Nat}
    (h : renderSegment content style identifiers (.hole expr offset) = .ok piece) :
    quote ∉ expr ∧ piece = renderHole style (substitute identifiers expr) := by
  simp only [renderSegment, hstyle] at h
  split at h
  · cases h
  · next hfind =>
    cases h
    exact ⟨Text.find?_singleton_eq_none_iff.1 hfind, rfl⟩

lemma head?_renderHole (hstyle : style.quote? = some quote) (expr rest : Text) :
    (inAlphabet escaped (renderHole style expr ++ rest)).head? ≠ some '\x7b' := by
  intro h
  rw [← List.append_nil (inAlphabet escaped _)] at h
  cases style with
  | plain => cases hstyle
  | double => exact absurd (eq_of_head?_inAlphabet h) (by decide)
  | single => exact absurd (eq_of_head?_inAlphabet h) (by decide)
  | template => exact absurd (eq_of_head?_inAlphabet h) (by decide)

/-- The items of written segments are theirs, one segment after the other. -/
lemma items_segments (hstyle : style.quote? = some quote) (hproper : Proper identifiers)
    {segments : List Segment} (hwell : Segment.WellFormed segments) {pieces : List Text}
    (h : segments.mapM (renderSegment content style identifiers) = .ok pieces) :
    items style quote (inAlphabet escaped pieces.flatten) =
      some (segments.flatMap (itemsOf identifiers escaped)) := by
  induction segments generalizing pieces with
  | nil =>
    cases h
    cases escaped <;> exact items_nil
  | cons s segments ih =>
    obtain ⟨piece, pieces, rfl, hpiece, hpieces⟩ := Attempt.mapM_cons_eq_ok.1 h
    rw [List.flatten_cons, inAlphabet_append, List.flatMap_cons]
    cases s with
    | text t =>
      obtain ⟨-, hhead, hrest⟩ := hwell
      obtain rfl : encode style t = piece := Except.ok.inj hpiece
      have hbrace : (inAlphabet escaped pieces.flatten).head? ≠ some '\x7b' := by
        cases segments with
        | nil =>
          cases hpieces
          cases escaped <;> simp [inAlphabet, toAscii]
        | cons d segments =>
          cases d with
          | text t => exact absurd (hhead _ rfl) Bool.false_ne_true
          | hole expr offset =>
            obtain ⟨next, pieces, rfl, hnext, -⟩ := Attempt.mapM_cons_eq_ok.1 hpieces
            obtain ⟨-, rfl⟩ := renderSegment_hole hstyle hnext
            exact head?_renderHole hstyle _ _
      rw [items_encode escaped hstyle t hbrace, ih hrest hpieces]
      rfl
    | hole expr offset =>
      obtain ⟨hbalanced, hrest⟩ := hwell
      obtain ⟨hquote, rfl⟩ := renderSegment_hole hstyle hpiece
      have hmarks := marks_substitute hproper expr
      have hmem : quote ∉ substitute identifiers expr := fun hmem =>
        hquote ((mem_iff_of_marks_eq hmarks (isMark_of_quote? hstyle)).1 hmem)
      rw [items_renderHole escaped hstyle (balanced_of_marks_eq hmarks hbalanced) hmem,
        ih hrest hpieces]
      rfl

lemma run?_flatMap {t : Text} (h : t ≠ []) : run? (t.flatMap Text.units16) = some [.text t] := by
  have hne : (t.flatMap Text.units16).isEmpty = false := by
    cases t with
    | nil => exact absurd rfl h
    | cons c t =>
      rw [List.flatMap_cons]
      by_cases hlt : c.toNat < 0x10000
      · rw [Text.units16_of_lt hlt]
        rfl
      · rw [Text.units16_of_not_lt hlt]
        rfl
  rw [run?, hne, if_neg (by decide), Text.ofUnits16?_flatMap]
  rfl

lemma gather_units (pending us : List Nat) (is : List Item) :
    gather pending (us.map .unit ++ is) = gather (pending ++ us) is := by
  induction us generalizing pending with
  | nil => simp
  | cons u us ih => rw [List.map_cons, List.cons_append, gather, ih]; simp

/-- The parts of written segments are the segments, after those of a run that has begun: a run goes on
only where no segment of text follows. -/
lemma gather_segments {segments : List Segment} (hwell : Segment.WellFormed segments) {us : List Nat}
    {begun : List Part} (hrun : run? us = some begun)
    (hhead : us = [] ∨ ∀ s ∈ segments.head?, s.isHole) :
    gather us (segments.flatMap (itemsOf identifiers escaped)) =
      some (begun ++ segments.map (Part.ofSegment identifiers escaped)) := by
  induction segments generalizing us begun with
  | nil => simpa [gather] using hrun
  | cons s segments ih =>
    rw [List.flatMap_cons, List.map_cons]
    cases s with
    | hole expr offset =>
      rw [itemsOf, List.singleton_append, gather, hrun, ih hwell.2 rfl (.inl rfl)]
      rfl
    | text t =>
      obtain ⟨hne, hnext, hrest⟩ := hwell
      rcases hhead with rfl | hhead
      · obtain rfl : [] = begun := Option.some.inj hrun
        rw [itemsOf, gather_units, List.nil_append, ih hrest (run?_flatMap hne) (.inr hnext)]
        rfl
      · exact absurd (hhead _ rfl) Bool.false_ne_true

end Segments

/-- Content written for a literal of a quoted style is read back as its segments: each piece of text
is decoded to itself, and each hole holds the expression with identifiers in the place of variables,
in the alphabet of the literal. -/
theorem read?_render {content written : Text} {style : Style} {quote : Char}
    {identifiers : Identifiers} {escaped : Bool} (hstyle : style.quote? = some quote)
    (hproper : Proper identifiers) (h : render content style identifiers escaped = .ok written) :
    ∃ segments, Segment.split content = .ok segments ∧
      read? style written = some (segments.map (Part.ofSegment identifiers escaped)) := by
  obtain ⟨segments, hsplit, h⟩ := Attempt.bind_eq_ok.1 h
  obtain ⟨pieces, hpieces, h⟩ := Attempt.bind_eq_ok.1 h
  obtain rfl : inAlphabet escaped pieces.flatten = written := Except.ok.inj h
  have hwell := Segment.wellFormed_of_split hsplit
  refine ⟨segments, hsplit, ?_⟩
  rw [read?, hstyle]
  simp only [Option.bind_eq_bind, Option.bind_some,
    items_segments hstyle hproper hwell hpieces, gather_segments hwell rfl (.inl rfl),
    List.nil_append]

/-- A backslash and a dollar sign right before a hole stay text. -/
theorem read?_render_before_hole :
    let identifiers : Identifiers := SortedMap.ofList [(['x'], ['q', '$'])]
    let content := "é\\\\$$\x7bx\x7d".toList
    let written := "\\u00e9\\\\\\\\$$\x7bq$\x7d".toList
    Style.template.quote? = some '\x60' ∧ Proper identifiers ∧
      render content .template identifiers true = .ok written ∧
      ∃ segments, Segment.split content = .ok segments ∧
        read? .template written = some (segments.map (Part.ofSegment identifiers true)) := by
  intro identifiers content written
  have hproper : Proper identifiers := by
    intro e he
    obtain rfl : e = (['x'], ['q', '$']) := List.mem_singleton.1 he
    have hword : isWord 'x' ∧ isWord 'q' := by decide +kernel
    simp [hword]
  have hwritten : render content .template identifiers true = .ok written := by rfl
  exact ⟨rfl, hproper, hwritten, read?_render rfl hproper hwritten⟩

end Retouch.Literal
