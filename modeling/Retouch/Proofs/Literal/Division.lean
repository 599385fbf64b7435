import Mathlib.Logic.Basic
import Retouch.Proofs.Literal.Escaping
import Retouch.Proofs.Literal.Marks
import Retouch.Proofs.Text.Boundary

/-! How content divides into text and holes. Each segment is known by where it stands: text in which no hole
opens, or a hole whose braces match. There is at most one such division, and the reader of content finds it;
there is none exactly if, after text and whole holes, a hole opens that no brace closes. -/
namespace Retouch.Segment

open Literal

def isHole : Segment → Bool
  | .text _ => false
  | .hole .. => true

/-- A segment as it stands in the content. -/
def source : Segment → Text
  | .text t => t
  | .hole expr _ => '$' :: '\x7b' :: expr ++ ['\x7d']

/-- Braces are balanced, and no beginning closes more of them than it opens. -/
def Matched (expr : Text) : Prop :=
  (∀ p, p <+: expr → p.count '\x7d' ≤ p.count '\x7b') ∧ expr.count '\x7d' = expr.count '\x7b'

/-- No hole opens in a text that comes after `front`: wherever a dollar sign and a brace stand in it, an odd
run of backslashes comes before them. -/
def Sealed (front t : Text) : Prop := ∀ a b, t = a ++ '$' :: '\x7b' :: b → Escaping (front ++ a)

/-- No brace closes the hole whose expression would start here. -/
def Unclosed (rest : Text) : Prop := ∀ expr after, rest = expr ++ '\x7d' :: after → ¬Matched expr

/-- A segment that may stand between `front` and other segments. Text is as long as it can be. -/
def Fits (front : Text) (after : List Segment) : Segment → Prop
  | .text t => t ≠ [] ∧ Sealed front t ∧ ∀ s ∈ after.head?, s.isHole
  | .hole expr offset => ¬Escaping front ∧ Matched expr ∧ offset = front.size + 2

/-- The segments are the content, and each of them fits its place. -/
structure Divides (segments : List Segment) (content : Text) : Prop where
  source : segments.flatMap Segment.source = content
  fits : ∀ before s after, segments = before ++ s :: after →
    Fits (before.flatMap Segment.source) after s

/-- Each of some segments that come after `front` fits its place. -/
def AllFit (front : Text) (segments : List Segment) : Prop :=
  ∀ before s after, segments = before ++ s :: after → Fits (front ++ before.flatMap source) after s

variable {front t rest piece expr : Text} {segments : List Segment} {s : Segment} {pos start depth : Nat}

lemma divides_iff {content : Text} :
    Divides segments content ↔ segments.flatMap source = content ∧ AllFit [] segments :=
  ⟨fun h => ⟨h.source, h.fits⟩, fun h => ⟨h.1, h.2⟩⟩

lemma allFit_nil (front : Text) : AllFit front [] := by
  intro before s after h
  simp at h

lemma allFit_cons : AllFit front (s :: segments) ↔
    Fits front segments s ∧ AllFit (front ++ s.source) segments := by
  constructor
  · intro h
    refine ⟨?_, fun before r after hsegments => ?_⟩
    · simpa using h [] s segments rfl
    · simpa using h (s :: before) r after (by rw [hsegments, List.cons_append])
  · rintro ⟨hs, h⟩ before r after hsegments
    cases before with
    | nil =>
      obtain ⟨rfl, rfl⟩ := List.cons.inj hsegments
      simpa using hs
    | cons b before =>
      obtain ⟨rfl, rfl⟩ := List.cons.inj hsegments
      simpa using h before r after rfl

/-! ## Braces -/

lemma depthAfter?_eq_some_iff {d : Nat} : depthAfter? depth t = some d ↔
    (∀ p, p <+: t → p.count '\x7d' ≤ depth + p.count '\x7b') ∧
      d + t.count '\x7d' = depth + t.count '\x7b' := by
  induction t generalizing depth with
  | nil => simp [depthAfter?, eq_comm]
  | cons c t ih =>
    have hprefix {P : Text → Prop} : (∀ p, p <+: c :: t → P p) ↔ P [] ∧ ∀ p, p <+: t → P (c :: p) := by
      simp only [List.prefix_cons_iff, or_imp, forall_and, forall_eq]
      refine and_congr_right fun _ => ⟨fun h p hp => h _ ⟨p, rfl, hp⟩, ?_⟩
      rintro h _ ⟨p, rfl, hp⟩
      exact h p hp
    rw [depthAfter?, hprefix]
    simp only [List.count_nil, Nat.zero_le, true_and]
    by_cases hclose : c = '\x7d'
    · subst hclose
      simp only [↓reduceIte, List.count_cons_self, List.count_cons_of_ne (show '\x7d' ≠ '\x7b' by decide)]
      cases depth with
      | zero =>
        refine iff_of_false (by simp) fun h => ?_
        simpa using h.1 [] List.nil_prefix
      | succ depth =>
        rw [if_neg (Nat.succ_ne_zero depth), Nat.add_sub_cancel, ih]
        exact and_congr (forall₂_congr fun p _ => by omega) (by omega)
    · simp only [if_neg hclose, List.count_cons_of_ne hclose, ih]
      by_cases hopen : c = '\x7b'
      · subst hopen
        simp only [if_true, List.count_cons_self]
        exact and_congr (forall₂_congr fun p _ => by omega) (by omega)
      · simp only [if_neg hopen, List.count_cons_of_ne hopen]

lemma balanced_iff_matched : Balanced expr ↔ Matched expr := by
  simp [Literal.Balanced, depthAfter?_eq_some_iff, Matched]

/-! ## Reading -/

lemma sealed_cons {c : Char} : Sealed front (c :: t) ↔
    (c = '$' → t.head? = some '\x7b' → Escaping front) ∧ Sealed (front ++ [c]) t := by
  constructor
  · intro h
    refine ⟨?_, fun a b ht => ?_⟩
    · rintro rfl hbrace
      obtain ⟨b, rfl⟩ := List.head?_eq_some_iff.1 hbrace
      simpa using h [] b rfl
    · simpa using h (c :: a) b (by rw [ht, List.cons_append])
  · rintro ⟨hhere, hlater⟩ a b ht
    cases a with
    | nil =>
      obtain ⟨rfl, rfl⟩ := List.cons.inj ht
      simpa using hhere rfl rfl
    | cons x a =>
      obtain ⟨rfl, rfl⟩ := List.cons.inj ht
      simpa using hlater a b rfl

/-- Text in which no hole opens is read as a piece, with the backslashes before it in mind. -/
lemma splitFrom_text (ht : Sealed front t) (hrest : rest.head? ≠ some '\x7b') :
    splitFrom (.text piece (decide (Escaping front))) pos (t ++ rest) =
      splitFrom (.text (t.reverse ++ piece) (decide (Escaping (front ++ t)))) (pos + t.size) rest := by
  induction t generalizing front piece pos with
  | nil => simp
  | cons c t ih =>
    obtain ⟨hhere, hlater⟩ := sealed_cons.1 ht
    have hstay : ¬(c = '$' && !decide (Escaping front) && (t ++ rest).head? = some '\x7b') = true := by
      simp only [Bool.and_eq_true, decide_eq_true_eq, Bool.not_eq_true', decide_eq_false_iff_not]
      rintro ⟨⟨hc, hescaping⟩, hbrace⟩
      cases t with
      | nil => exact hrest hbrace
      | cons d t => exact hescaping (hhere hc hbrace)
    have hescaped : (decide (c = '\\') && !decide (Escaping front)) =
        decide (Escaping (front ++ [c])) := by
      simp [escaping_append_singleton]
    rw [List.cons_append, splitFrom, if_neg hstay, hescaped, ih hlater]
    simp [Nat.add_assoc]

/-- In a hole, an expression is read that does not leave the hole. -/
lemma splitFrom_expression {d : Nat} (h : depthAfter? depth t = some d) :
    splitFrom (.hole expr (depth + 1) start) pos (t ++ rest) =
      splitFrom (.hole (t.reverse ++ expr) (d + 1) start) (pos + t.size) rest := by
  induction t generalizing expr depth pos with
  | nil =>
    cases h
    simp
  | cons c t ih =>
    have hsize : pos + Text.size (c :: t) = pos + c.utf8Size + Text.size t := by
      rw [Text.size_cons, Nat.add_assoc]
    rw [List.cons_append, splitFrom, hsize, List.reverse_cons, List.append_assoc, List.singleton_append]
    rw [depthAfter?] at h
    by_cases hclose : c = '\x7d'
    · subst hclose
      cases depth with
      | zero => cases h
      | succ depth =>
        rw [if_pos rfl, if_neg (Nat.succ_ne_zero depth), Nat.add_sub_cancel] at h
        rw [if_neg (by decide), if_pos rfl, if_neg (by omega), Nat.add_sub_cancel, ih h]
    · rw [if_neg hclose] at h
      by_cases hopen : c = '\x7b'
      · rw [if_pos hopen] at h ⊢
        rw [if_neg (Nat.succ_ne_zero depth), ih h]
      · rw [if_neg hopen] at h ⊢
        rw [if_neg hclose, ih h]

/-- A hole is read from its dollar sign to the brace that matches. -/
lemma splitFrom_hole (hexpr : Balanced expr) :
    splitFrom (.text piece false) pos (source (.hole expr (pos + 2)) ++ rest) =
      (splitFrom (.text [] false) (pos + 3 + expr.size) rest).map
        (ofPiece piece ++ .hole expr (pos + 2) :: ·) := by
  have hopen : splitFrom (.text piece false) pos ('$' :: '\x7b' :: (expr ++ '\x7d' :: rest)) =
      (splitFrom (.hole [] 1 pos) (pos + 1 + 1) (expr ++ '\x7d' :: rest)).map (ofPiece piece ++ ·) := rfl
  have hclose (e : Text) (n : Nat) : splitFrom (.hole e 1 pos) n ('\x7d' :: rest) =
      (splitFrom (.text [] false) (n + 1) rest).map (.hole e.reverse (pos + 2) :: ·) := rfl
  have hsource : source (.hole expr (pos + 2)) ++ rest =
      '$' :: '\x7b' :: (expr ++ '\x7d' :: rest) := by simp [source]
  rw [hsource, hopen, splitFrom_expression hexpr, hclose, List.append_nil, List.reverse_reverse,
    show pos + 1 + 1 + expr.size + 1 = pos + 3 + expr.size by omega]
  cases splitFrom (.text [] false) (pos + 3 + expr.size) rest <;> rfl

/-- A hole that nothing closes ends the reading. -/
lemma splitFrom_unclosed
    (h : ∀ e after, t = e ++ '\x7d' :: after → depthAfter? depth e ≠ some 0) :
    splitFrom (.hole expr (depth + 1) start) pos t = .error start := by
  induction t generalizing expr depth pos with
  | nil => rfl
  | cons c t ih =>
    have hlater {depth' : Nat} (hdepth : ∀ e, depthAfter? depth (c :: e) = depthAfter? depth' e) :
        ∀ e after, t = e ++ '\x7d' :: after → depthAfter? depth' e ≠ some 0 := by
      intro e after ht
      rw [← hdepth e]
      exact h (c :: e) after (by rw [ht, List.cons_append])
    rw [splitFrom]
    by_cases hclose : c = '\x7d'
    · subst hclose
      cases depth with
      | zero => exact absurd rfl (h [] t rfl)
      | succ depth =>
        rw [if_neg (by decide), if_pos rfl, if_neg (by omega), Nat.add_sub_cancel]
        exact ih (hlater fun e => rfl)
    · by_cases hopen : c = '\x7b'
      · subst hopen
        rw [if_pos rfl, if_neg (Nat.succ_ne_zero depth)]
        exact ih (hlater fun e => rfl)
      · rw [if_neg hopen, if_neg hclose]
        exact ih (hlater fun e => by rw [depthAfter?, if_neg hclose, if_neg hopen])

/-! ## Division -/

lemma head?_flatMap_source (hsegments : ∀ s ∈ segments.head?, s.isHole)
    (hrest : rest.head? ≠ some '\x7b') : (segments.flatMap source ++ rest).head? ≠ some '\x7b' := by
  cases segments with
  | nil => exact hrest
  | cons s segments =>
    cases s with
    | text t => exact absurd (hsegments _ rfl) Bool.false_ne_true
    | hole expr offset => simp [source]

lemma not_escaping_source (front expr : Text) (offset : Nat) :
    ¬Escaping (front ++ source (.hole expr offset)) := by
  have hsource : front ++ source (.hole expr offset) = (front ++ '$' :: '\x7b' :: expr) ++ ['\x7d'] := by
    simp [source]
  rw [hsource]
  exact not_escaping_of_ne (by decide)

/-- The reader goes through segments that fit, and keeps as a piece at most the text that it read last. -/
lemma splitFrom_segments (h : AllFit front segments)
    (hpiece : piece = [] ∨ ∀ s ∈ segments.head?, s.isHole) (hrest : rest.head? ≠ some '\x7b') :
    ∃ done last, done ++ ofPiece last = ofPiece piece ++ segments ∧
      splitFrom (.text piece (decide (Escaping front))) front.size (segments.flatMap source ++ rest) =
        (splitFrom (.text last (decide (Escaping (front ++ segments.flatMap source))))
          (Text.size (front ++ segments.flatMap source)) rest).map (done ++ ·) := by
  induction segments generalizing front piece with
  | nil =>
    refine ⟨[], piece, by simp, ?_⟩
    simp only [List.flatMap_nil, List.nil_append, List.append_nil]
    cases splitFrom (.text piece (decide (Escaping front))) front.size rest <;> rfl
  | cons s segments ih =>
    obtain ⟨hs, hlater⟩ := allFit_cons.1 h
    have hflat : front ++ (s :: segments).flatMap source =
        (front ++ s.source) ++ segments.flatMap source := by simp
    rw [hflat, List.flatMap_cons, List.append_assoc]
    cases s with
    | text t =>
      obtain ⟨hne, hsealed, hnext⟩ := hs
      obtain rfl : piece = [] :=
        hpiece.resolve_right fun hhole => absurd (hhole _ rfl) Bool.false_ne_true
      obtain ⟨done, last, hdone, hread⟩ := @ih (front ++ t) t.reverse hlater (.inr hnext)
      refine ⟨done, last, ?_, ?_⟩
      · simpa [ofPiece, hne] using hdone
      · have hsize : front.size + t.size = Text.size (front ++ t) := (Text.size_append front t).symm
        rw [source, splitFrom_text hsealed (head?_flatMap_source hnext hrest), List.append_nil, hsize,
          hread]
    | hole expr offset =>
      obtain ⟨hopen, hexpr, rfl⟩ := hs
      obtain ⟨done, last, hdone, hread⟩ := @ih _ [] hlater (.inl rfl)
      refine ⟨ofPiece piece ++ .hole expr (front.size + 2) :: done, last, ?_, ?_⟩
      · have hdone : done ++ ofPiece last = segments := hdone
        simp [hdone]
      · have hsize : front.size + 3 + expr.size =
            Text.size (front ++ source (.hole expr (front.size + 2))) := by
          have hdollar : ('$' : Char).utf8Size = 1 := rfl
          have hbrace : ('\x7b' : Char).utf8Size = 1 := rfl
          have hclose : ('\x7d' : Char).utf8Size = 1 := rfl
          simp only [source, Text.size_append, Text.size_cons, Text.size_nil]
          omega
        rw [decide_eq_false (not_escaping_source front expr _)] at hread
        rw [decide_eq_false hopen, splitFrom_hole (balanced_iff_matched.2 hexpr), hsize, hread]
        generalize splitFrom _ _ rest = result
        cases result <;> simp [Except.map]

/-- The reader finds the division of some content. -/
lemma splitFrom_of_divides {content : Text} (h : Divides segments content) :
    splitFrom (.text [] false) 0 content = .ok segments := by
  obtain ⟨rfl, hfit⟩ := divides_iff.1 h
  obtain ⟨done, last, hdone, hread⟩ :=
    @splitFrom_segments [] [] [] segments hfit (.inl rfl) (by simp)
  have hdone : done ++ ofPiece last = segments := hdone
  rw [List.append_nil] at hread
  exact hread.trans (congrArg Except.ok hdone)

/-- The reader reports the first hole that nothing closes. -/
lemma splitFrom_of_unclosed (h : Divides segments front) (hopen : ¬Escaping front)
    (hrest : Unclosed rest) :
    splitFrom (.text [] false) 0 (front ++ '$' :: '\x7b' :: rest) = .error front.size := by
  obtain ⟨rfl, hfit⟩ := divides_iff.1 h
  obtain ⟨done, last, -, hread⟩ :=
    @splitFrom_segments [] ('$' :: '\x7b' :: rest) [] segments hfit (.inl rfl) (by simp)
  have hunclosed : splitFrom (.hole [] 1 (Text.size (segments.flatMap source)))
      (Text.size (segments.flatMap source) + 1 + 1) rest = .error (Text.size (segments.flatMap source)) :=
    splitFrom_unclosed fun e after ht hbalanced => hrest e after ht (balanced_iff_matched.1 hbalanced)
  have hstep : splitFrom (.text last false) (Text.size (segments.flatMap source)) ('$' :: '\x7b' :: rest) =
      (splitFrom (.hole [] 1 (Text.size (segments.flatMap source)))
        (Text.size (segments.flatMap source) + 1 + 1) rest).map (ofPiece last ++ ·) := rfl
  rw [List.nil_append, decide_eq_false hopen, hstep, hunclosed] at hread
  exact hread

lemma exists_opening (front t : Text) : Sealed front t ∨ ∃ a rest, t = a ++ '$' :: '\x7b' :: rest ∧
    Sealed front a ∧ ¬Escaping (front ++ a) := by
  induction t generalizing front with
  | nil => exact .inl fun a b h => by simp at h
  | cons c t ih =>
    by_cases hhere : c = '$' → t.head? = some '\x7b' → Escaping front
    · rcases ih (front ++ [c]) with hlater | ⟨a, rest, rfl, hsealed, hopen⟩
      · exact .inl (sealed_cons.2 ⟨hhere, hlater⟩)
      · refine .inr ⟨c :: a, rest, rfl, sealed_cons.2 ⟨fun hc hbrace => hhere hc ?_, hsealed⟩, by simpa using hopen⟩
        obtain ⟨b, rfl⟩ := List.head?_eq_some_iff.1 hbrace
        rfl
    · simp only [not_forall] at hhere
      obtain ⟨rfl, hbrace, hopen⟩ := hhere
      obtain ⟨rest, rfl⟩ := List.head?_eq_some_iff.1 hbrace
      exact .inr ⟨[], rest, rfl, fun a b h => by simp at h, by simpa using hopen⟩

lemma allFit_ofPiece_append (ht : Sealed front t) (hhead : ∀ s ∈ segments.head?, s.isHole)
    (h : AllFit (front ++ t) segments) : AllFit front (ofPiece t.reverse ++ segments) := by
  by_cases hempty : t = []
  · subst hempty
    simpa [ofPiece] using h
  · have hfits : Fits front segments (.text t) := ⟨hempty, ht, hhead⟩
    simpa [ofPiece, hempty] using allFit_cons.2 ⟨hfits, h⟩

lemma flatMap_ofPiece (piece : Text) : (ofPiece piece).flatMap source = piece.reverse := by
  unfold ofPiece
  split
  · next hempty => rw [List.isEmpty_iff.1 hempty]; rfl
  · simp [source]

/-- Every text divides, up to its end or to a hole that nothing closes. -/
lemma exists_division (front t : Text) :
    (∃ segments, segments.flatMap source = t ∧ AllFit front segments) ∨
      ∃ segments rest, t = segments.flatMap source ++ '$' :: '\x7b' :: rest ∧ AllFit front segments ∧
        ¬Escaping (front ++ segments.flatMap source) ∧ Unclosed rest := by
  induction hlength : t.length using Nat.strongRecOn generalizing front t with
  | ind n ih =>
    rcases exists_opening front t with hsealed | ⟨a, rest, rfl, hsealed, hopen⟩
    · refine .inl ⟨ofPiece t.reverse, by simp [flatMap_ofPiece], ?_⟩
      simpa using allFit_ofPiece_append hsealed (by simp) (allFit_nil (front ++ t))
    · by_cases hclosed : Unclosed rest
      · refine .inr ⟨ofPiece a.reverse, rest, by simp [flatMap_ofPiece], ?_, ?_, hclosed⟩
        · simpa using allFit_ofPiece_append hsealed (by simp) (allFit_nil (front ++ a))
        · simpa [flatMap_ofPiece] using hopen
      · simp only [Unclosed, not_forall, not_not] at hclosed
        obtain ⟨expr, after, rfl, hexpr⟩ := hclosed
        let hole := Segment.hole expr (Text.size (front ++ a) + 2)
        have hhole (segments : List Segment) : Fits (front ++ a) segments hole := ⟨hopen, hexpr, rfl⟩
        have hfits (segments : List Segment) (h : AllFit (front ++ a ++ hole.source) segments) :
            AllFit front (ofPiece a.reverse ++ hole :: segments) :=
          allFit_ofPiece_append hsealed (by simp [hole, isHole]) (allFit_cons.2 ⟨hhole segments, h⟩)
        have hshorter : after.length < n := by
          rw [← hlength]
          simp
          omega
        rcases ih _ hshorter (front ++ a ++ hole.source) after rfl with
          ⟨segments, rfl, hfit⟩ | ⟨segments, rest, rfl, hfit, hopen', hrest⟩
        · exact .inl ⟨_, by simp [flatMap_ofPiece, hole, source], hfits segments hfit⟩
        · refine .inr ⟨_, rest, ?_, hfits segments hfit, ?_, hrest⟩
          · simp [flatMap_ofPiece, hole, source]
          · simpa [flatMap_ofPiece] using hopen'

theorem splitFrom_eq_ok_iff {content : Text} :
    splitFrom (.text [] false) 0 content = .ok segments ↔ Divides segments content := by
  refine ⟨fun h => ?_, splitFrom_of_divides⟩
  rcases exists_division [] content with ⟨found, hsource, hfit⟩ | ⟨before, rest, rfl, hfit, hopen, hrest⟩
  · have hdivides := divides_iff.2 ⟨hsource, hfit⟩
    rw [splitFrom_of_divides hdivides] at h
    cases h
    exact hdivides
  · rw [splitFrom_of_unclosed (divides_iff.2 ⟨rfl, hfit⟩) hopen hrest] at h
    cases h

theorem splitFrom_eq_error_iff {content : Text} :
    splitFrom (.text [] false) 0 content = .error start ↔
      ∃ before front rest, Divides before front ∧ ¬Escaping front ∧ Unclosed rest ∧
        content = front ++ '$' :: '\x7b' :: rest ∧ start = front.size := by
  constructor
  · intro h
    rcases exists_division [] content with ⟨found, hsource, hfit⟩ | ⟨before, rest, rfl, hfit, hopen, hrest⟩
    · rw [splitFrom_of_divides (divides_iff.2 ⟨hsource, hfit⟩)] at h
      cases h
    · have hdivides := divides_iff.2 ⟨rfl, hfit⟩
      rw [splitFrom_of_unclosed hdivides hopen hrest] at h
      cases h
      exact ⟨before, _, rest, hdivides, hopen, hrest, rfl, rfl⟩
  · rintro ⟨before, front, rest, hdivides, hopen, hrest, rfl, rfl⟩
    exact splitFrom_of_unclosed hdivides hopen hrest

lemma divides_of_split {content : Text} (h : split content = .ok segments) : Divides segments content := by
  unfold split at h
  split at h
  · next hsplit =>
    cases h
    exact splitFrom_eq_ok_iff.1 hsplit
  · cases h

lemma split_of_divides {content : Text} (h : Divides segments content) : split content = .ok segments := by
  rw [split, splitFrom_of_divides h]

lemma split_eq_error_iff {content : Text} {halt : Halt} : split content = .error halt ↔
    ∃ before front rest, Divides before front ∧ ¬Escaping front ∧ Unclosed rest ∧
      content = front ++ '$' :: '\x7b' :: rest ∧
      halt = .skip (unescaped content front.size "$\x7b") := by
  constructor
  · intro h
    unfold split at h
    split at h
    · cases h
    · next offset hsplit =>
      cases h
      obtain ⟨before, front, rest, hbefore, hopen, hrest, hcontent, rfl⟩ :=
        splitFrom_eq_error_iff.1 hsplit
      exact ⟨before, front, rest, hbefore, hopen, hrest, hcontent, rfl⟩
  · rintro ⟨before, front, rest, hbefore, hopen, hrest, rfl, rfl⟩
    rw [split, splitFrom_of_unclosed hbefore hopen hrest]
    rfl

/-- Content is split into segments exactly if they divide it. -/
theorem split_eq_ok_iff_divides {content : Text} :
    split content = .ok segments ↔ Divides segments content :=
  ⟨divides_of_split, split_of_divides⟩

end Retouch.Segment
