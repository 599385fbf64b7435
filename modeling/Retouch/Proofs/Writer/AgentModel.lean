import Retouch.Proofs.Edit.Splice
import Retouch.Proofs.Pattern.Site
import Retouch.Proofs.Scan.Backward
import Retouch.Proofs.Scan.Bracket
import Retouch.Proofs.Writer.ModelMember

/-! The model of an agent. The edit that gives it one lies in the object whose member is the type, if the
braces before the type come in pairs; and it is the last model of the object, unless a later member is one.
A model that is not written as the edit expects, such as a name, is no member that it replaces: the edit puts
the new one before it, and the old one holds. -/
namespace Retouch.Writer.Agents

open Scan

variable {t : Text} {agent model : String} {e : Edit} {place o stop : Nat}
  {as bs cs front body rest : List UInt8}

/-! ## Edits of a body -/

/-- A body that starts at an offset of the text, after an edit of it. -/
def bodyAfter (e : Edit) (start : Nat) (body : List UInt8) : List UInt8 :=
  body.take (e.start - start) ++ (e.content.bytes ++ body.drop (e.stop - start))

lemma bodyAfter_append (e : Edit) (start : Nat) (hstart : e.start = start + as.length)
    (hstop : e.stop = start + as.length + bs.length) :
    bodyAfter e start (as ++ (bs ++ cs)) = as ++ (e.content.bytes ++ cs) ∧
      (as ++ (bs ++ cs)).drop (e.stop - start) = cs := by
  have hcut : e.start - start = as.length := by omega
  have hskip : e.stop - start = (as ++ bs).length := by
    rw [List.length_append]
    omega
  rw [bodyAfter, hcut, hskip, ← List.append_assoc as bs cs, List.drop_left, List.append_assoc,
    List.take_left]
  exact ⟨rfl, rfl⟩

/-- Where one scan reads code, so does the other. -/
lemma lex_eq_code {s : Lex × Nat} (has : level? isOpener isCloser (.code, 0) as = some (.code, 0))
    (h : level? (· == 0x7B) (· == 0x7D) (.code, 0) as = some s) : s.1 = .code := by
  rw [lex_of_level? brackets_braces h]
  exact (lex_of_level? brackets_isOpener has).symm

/-- Bytes that neither scan notices can be exchanged in a body where no bracket is open. -/
lemma level?_body (h : level? (· == 0x7B) (· == 0x7D) (.code, 0) (as ++ (bs ++ cs)) = some (.code, 0))
    (has : level? isOpener isCloser (.code, 0) as = some (.code, 0)) (hbs : Quiet bs) {ds : List UInt8}
    (hds : Quiet ds) :
    level? (· == 0x7B) (· == 0x7D) (.code, 0) (as ++ (ds ++ cs)) = some (.code, 0) :=
  level?_exchange h (fun _ => lex_eq_code has) hbs.2 hds.2

lemma exists_apply_body (he : e.LiesIn t) (ht : t.bytes = front ++ (body ++ rest))
    (hstart : front.length ≤ e.start) (hstop : e.stop ≤ front.length + body.length) :
    ∃ t', e.apply t = .ok t' ∧ t'.bytes = front ++ (bodyAfter e front.length body ++ rest) := by
  obtain ⟨a, m, b, rfl, ha, hm⟩ := he.exists_append
  have hle : e.start ≤ e.stop := he.1
  have happly : e.apply (a ++ m ++ b ++ []) = .ok (a ++ e.content ++ b ++ []) :=
    Edit.apply_of_liesIn ha hm
  rw [List.append_nil, List.append_nil] at happly
  refine ⟨_, happly, ?_⟩
  have hbytes : a.bytes ++ (m.bytes ++ b.bytes) = front ++ (body ++ rest) := by
    rw [← ht]
    simp
  have hbefore : a.bytes = front ++ body.take (e.start - front.length) := by
    have htake := congrArg (List.take e.start) hbytes
    rwa [← ha, ← Text.length_bytes, List.take_left, Text.length_bytes, ha, List.take_append,
      List.take_of_length_le hstart, List.take_append_of_le_length (by omega)] at htake
  have hafter : b.bytes = body.drop (e.stop - front.length) ++ rest := by
    have hdrop := congrArg (List.drop e.stop) hbytes
    rwa [← List.append_assoc, ← Text.bytes_append, ← hm, ← Text.length_bytes, List.drop_left,
      Text.length_bytes, hm, List.drop_append, List.drop_of_length_le (by omega), List.nil_append,
      List.drop_append_of_le_length (by omega)] at hdrop
  rw [Text.bytes_append, Text.bytes_append, hbefore, hafter, bodyAfter]
  simp only [List.append_assoc]

/-! ## The edit -/

/-- What a model pattern captures has at least its quotes. -/
lemma lt_of_standsIn {content : Text} {m : Match} {span : Span} (h : modelMember.StandsIn content m)
    (hspan : m.captures.head? = some span) : span.start < span.stop := by
  obtain ⟨front, covered, rest, spans, -, hcovers, rfl⟩ := h
  obtain ⟨_, _, _, _, ⟨rfl, rfl⟩, ⟨_, value, _, _, ⟨rfl, rfl⟩, ⟨_, hvalue, rfl⟩, rfl, rfl⟩,
    rfl, rfl⟩ := hcovers
  obtain ⟨_, _, _, _, ⟨rfl, rfl⟩, ⟨_, _, _, _, ⟨-, -, rfl⟩, ⟨rfl, rfl⟩, rfl, rfl⟩, rfl, rfl⟩ := hvalue
  simp only [List.nil_append, List.map_nil, List.map_cons, List.head?_cons, Option.some.injEq] at hspan
  have hquotes : 0 < '\"'.utf8Size := by decide
  rw [← hspan]
  simp [Span.shift]
  omega

/-- What is found of a model is more than nothing, and lies in the body. -/
lemma liesIn_of_ownModel? {content : Text} {value : Span} (hslice : t.slice? (o + 1) (stop - 1) = some content)
    (h : ownModel? t (o + 1) content = some value) :
    value.LiesIn t ∧ o + 1 ≤ value.start ∧ value.start < value.stop ∧ value.stop ≤ stop - 1 := by
  obtain ⟨m, hm, hvalue⟩ := List.exists_of_findSome?_eq_some h
  obtain ⟨span, hspan, hvalue⟩ := Option.bind_eq_some_iff.1 hvalue
  have hstands := Pattern.standsIn_of_mem_matchesIn hm
  have hliesIn := hstands.capture_liesIn (List.mem_of_mem_head? hspan)
  split at hvalue
  · cases hvalue
    have hlt := lt_of_standsIn hstands hspan
    have hsize : o + 1 + content.size = stop - 1 := by
      obtain ⟨a, b, -, ha, hb⟩ := Text.slice?_eq_some.1 hslice
      omega
    have hle := Text.le_size_of_isBoundary (Span.liesIn_iff.1 hliesIn).2.2
    refine ⟨hliesIn.shift hslice, Nat.le_add_right _ _, Nat.add_lt_add_left hlt _, ?_⟩
    rw [Span.shift, ← hsize]
    exact Nat.add_le_add_left hle _
  · cases hvalue

/-- The edit replaces what was found of a model, or stands after the comma that follows the type. -/
lemma cases_of_modelEdit? (h : modelEdit? t agent model = .ok (some e))
    (hplace : t.find? (typeMember agent) = some place) :
    ∃ o stop, enclosingOpener? t place 0x7B 0x7D agentReach = some o ∧
      balancedEnd? t o 0x7B 0x7D = some stop ∧ ((∃ content value,
        t.slice? (o + 1) (stop - 1) = some content ∧ ownModel? t (o + 1) content = some value ∧
          e = ⟨value.start, value.stop, quoted model⟩) ∨
      ∃ before later, t = before ++ ',' :: later ∧ before.size = place + (typeMember agent).size ∧
        e = .insert (before.size + 1) ("model:".toList ++ quoted model ++ [','])) := by
  have hdemand {α : Type} {x : Option α} {a : α} (h : Attempt.demand x = .ok a) : x = some a := by
    cases x <;> cases h
    rfl
  unfold modelEdit? at h
  dsimp only at h
  split at h
  · cases h
  · next found o stop hfound =>
    obtain ⟨place', hplace', hfound⟩ := Option.bind_eq_some_iff.1 hfound
    obtain rfl := Option.some.inj (hplace.symm.trans hplace')
    obtain ⟨o', hopener, hfound⟩ := Option.bind_eq_some_iff.1 hfound
    obtain ⟨stop', hstop, hfound⟩ := Option.bind_eq_some_iff.1 hfound
    cases hfound
    refine ⟨o, stop, hopener, (Option.filter_eq_some_iff.1 hstop).1, ?_⟩
    obtain ⟨content, hcontent, h⟩ := Attempt.bind_eq_ok.1 h
    split at h
    · next value hvalue =>
      cases h
      exact .inl ⟨content, value, hdemand hcontent, hvalue, rfl⟩
    · obtain ⟨⟨before, after⟩, hcut, hedit⟩ := Attempt.bind_eq_ok.1 h
      obtain ⟨rfl, hsize⟩ := Text.cut?_eq_some.1 (hdemand hcut)
      dsimp only at hedit
      split at hedit
      · next hcomma =>
        cases hedit
        obtain ⟨later, rfl⟩ := List.head?_eq_some_iff.1 hcomma
        exact .inr ⟨before, later, rfl, hsize, by rw [hsize]⟩
      · cases hedit

/-! ## The object -/

/-- The forward scans find a place in an object, and in no bracket and no string within it. -/
structure DirectlyHolds (t : Text) (o stop place : Nat) : Prop where
  before : o < place
  closes : balancedEnd? t o 0x7B 0x7D = some stop
  past : place < stop
  depth : depthBetween? t (o + 1) place = some 0

/-- The parts of a text around a place in an object that directly holds it. The end of the object is found
by its braces alone, and the depth of the place by all brackets, so neither count gives the other. -/
structure Parts (t : Text) (front inner outer rest : List UInt8) : Prop where
  bytes : t.bytes = front ++ 0x7B :: ((inner ++ outer) ++ 0x7D :: rest)
  body : level? (· == 0x7B) (· == 0x7D) (.code, 0) (inner ++ outer) = some (.code, 0)
  level : level? isOpener isCloser (.code, 0) inner = some (.code, 0)

lemma DirectlyHolds.exists_parts (h : DirectlyHolds t o stop place) :
    ∃ front inner outer rest, Parts t front inner outer rest ∧ front.length = o ∧
      stop = o + (inner ++ outer).length + 2 ∧ (t.bytes.take place).drop (o + 1) = inner ∧
      place = o + 1 + inner.length := by
  obtain ⟨hbefore, hcloses, hpast, hdepth⟩ := h
  obtain ⟨front, body, rest, ht, rfl, rfl, hbody⟩ :=
    (balancedEnd?_eq_some_iff rfl rfl (by decide)).1 hcloses
  have hdrop : t.bytes.drop (front.length + 1) = body ++ 0x7D :: rest := by
    rw [ht, ← List.drop_drop, List.drop_left]
    rfl
  have htake : (t.bytes.drop (front.length + 1)).take (place - (front.length + 1)) =
      body.take (place - (front.length + 1)) := by
    rw [hdrop, List.take_append_of_le_length (by omega)]
  have hsplit := List.take_append_drop (place - (front.length + 1)) body
  refine ⟨front, body.take (place - (front.length + 1)), body.drop (place - (front.length + 1)), rest,
    ⟨by rw [hsplit, ht], by rw [hsplit, hbody], ?_⟩, rfl, by rw [hsplit], ?_, ?_⟩
  · rw [← htake]
    exact depthAfter_eq_some_iff.1 hdepth
  · rw [List.drop_take, htake]
  · rw [List.length_take_of_le (by omega)]
    omega

/-- If a comma follows the type, then the type and the comma are in the body. -/
lemma Parts.exists_comma {inner outer : List UInt8} {head later : Text} (h : Parts t front inner outer rest)
    (hplace : t.find? (typeMember agent) = some (front.length + 1 + inner.length))
    (htext : t = head ++ ',' :: later)
    (hsize : head.size = front.length + 1 + inner.length + (typeMember agent).size) :
    ∃ after, outer = (typeMember agent).bytes ++ 0x2C :: after := by
  obtain ⟨a, b, hfound, ha⟩ := Text.standsAt_of_find? hplace
  have htype : a.bytes ++ ((typeMember agent).bytes ++ b.bytes) =
      (front ++ 0x7B :: inner) ++ (outer ++ 0x7D :: rest) := by
    have ht := h.bytes
    rw [hfound] at ht
    simpa using ht
  have hcomma : (a ++ typeMember agent).bytes ++ b.bytes = head.bytes ++ 0x2C :: later.bytes := by
    rw [← Text.bytes_append, ← hfound, htext, Text.bytes_append]
    rfl
  have hstarts : a.bytes.length = (front ++ 0x7B :: inner).length := by
    rw [Text.length_bytes, ha]
    simp
    omega
  have hends : (a ++ typeMember agent).bytes.length = head.bytes.length := by
    rw [Text.length_bytes, Text.length_bytes, Text.size_append, ha, hsize]
  have hquiet : Quiet ((typeMember agent).bytes ++ [0x2C]) :=
    (quiet_typeMember agent).append (quiet_of_all (by decide))
  obtain ⟨⟨lex, depth⟩, hbetween, houter⟩ := exists_level?_of_append h.body
  obtain rfl : lex = .code := lex_eq_code h.level hbetween
  have heq : outer ++ 0x7D :: rest = ((typeMember agent).bytes ++ [0x2C]) ++ later.bytes := by
    rw [← (List.append_inj htype hstarts).2, (List.append_inj hcomma hends).2]
    simp
  obtain ⟨after, rfl⟩ := hquiet.2.exists_append rfl rfl houter heq
  exact ⟨after, by simp⟩

/-- The edit lies in the body: it replaces something there, or it stands after a comma of the body where no
bracket is open. -/
lemma Parts.liesIn_of_modelEdit? {inner outer : List UInt8} (h : Parts t front inner outer rest)
    (hedit : modelEdit? t agent model = .ok (some e))
    (hplace : t.find? (typeMember agent) = some (front.length + 1 + inner.length))
    (hopener : enclosingOpener? t (front.length + 1 + inner.length) 0x7B 0x7D agentReach =
      some front.length)
    (hcloses : balancedEnd? t front.length 0x7B 0x7D = some (front.length + (inner ++ outer).length + 2)) :
    e.LiesIn t ∧ front.length + 1 ≤ e.start ∧ e.stop ≤ front.length + 1 + (inner ++ outer).length ∧
      (e.start < e.stop ∧ e.content = quoted model ∨ ∃ before after,
        inner ++ outer = before ++ 0x2C :: after ∧
          level? isOpener isCloser (.code, 0) before = some (.code, 0) ∧
          e = .insert (front.length + 1 + before.length + 1) ("model:".toList ++ quoted model ++ [','])) := by
  obtain ⟨o, stop, hopener', hstop, hcases⟩ := cases_of_modelEdit? hedit hplace
  obtain rfl := Option.some.inj (hopener.symm.trans hopener')
  obtain rfl := Option.some.inj (hcloses.symm.trans hstop)
  rcases hcases with ⟨content, span, hslice, hspan, rfl⟩ | ⟨head, later, htext, hsize, rfl⟩
  · obtain ⟨hliesIn, hlow, hlt, hhigh⟩ := liesIn_of_ownModel? hslice hspan
    exact ⟨Edit.fits_iff.1 hliesIn, hlow, by dsimp only; omega, .inl ⟨hlt, rfl⟩⟩
  · obtain ⟨after, rfl⟩ := h.exists_comma hplace htext hsize
    have htype : level? isOpener isCloser (.code, 0) (inner ++ (typeMember agent).bytes) =
        some (.code, 0) := by
      rw [level?_append_of_eq h.level, (quiet_typeMember agent).1]
    have hboundary : t.isBoundary (head.size + 1) :=
      Text.isBoundary_iff.2 ⟨head ++ [','], later, by simp [htext], by simp; rfl⟩
    have hplaced : head.size = front.length + 1 + (inner ++ (typeMember agent).bytes).length := by
      rw [hsize, List.length_append, Text.length_bytes, Nat.add_assoc]
    refine ⟨⟨Nat.le_refl _, Text.le_size_of_isBoundary hboundary, hboundary, hboundary⟩, ?_, ?_,
      .inr ⟨_, after, (List.append_assoc _ _ _).symm, htype, by rw [hplaced]⟩⟩
    · simp only [Edit.insert]
      omega
    · simp only [Edit.insert, hplaced, List.length_append, List.length_cons]
      omega

/-- After an edit of its body the object is still one, and it has the model, unless a later member is a
model. -/
structure GivesModel (e : Edit) (model : String) (t' : Text) (o : Nat) (body : List UInt8) : Prop where
  closes : balancedEnd? t' o 0x7B 0x7D = some (o + (bodyAfter e (o + 1) body).length + 2)
  last : lastModel? (bodyAfter e (o + 1) body) =
    some ((lastModel? (body.drop (e.stop - (o + 1)))).getD (quoted model).bytes)

lemma givesModel_of_exchange {t' : Text}
    (ht' : t'.bytes = front ++ 0x7B :: (bodyAfter e (front.length + 1) (as ++ (bs ++ cs)) ++ 0x7D :: rest))
    (hbody : level? (· == 0x7B) (· == 0x7D) (.code, 0) (as ++ (bs ++ cs)) = some (.code, 0))
    (has : level? isOpener isCloser (.code, 0) as = some (.code, 0)) (hbs : Quiet bs)
    (hcontent : Quiet e.content.bytes) (hstart : e.start = front.length + 1 + as.length)
    (hstop : e.stop = front.length + 1 + as.length + bs.length)
    (hlast : lastModel? (as ++ (e.content.bytes ++ cs)) =
      some ((lastModel? cs).getD (quoted model).bytes)) :
    GivesModel e model t' front.length (as ++ (bs ++ cs)) := by
  obtain ⟨hafter, hlater⟩ : bodyAfter e (front.length + 1) (as ++ (bs ++ cs)) =
      as ++ (e.content.bytes ++ cs) ∧ (as ++ (bs ++ cs)).drop (e.stop - (front.length + 1)) = cs :=
    bodyAfter_append e _ hstart hstop
  refine ⟨?_, by rw [hafter, hlater, hlast]⟩
  refine (balancedEnd?_eq_some_iff rfl rfl (by decide)).2 ⟨front, _, rest, ht', rfl, rfl, ?_⟩
  rw [hafter]
  exact level?_body hbody has hbs hcontent

/-- A value that takes the place of that of a whole member. -/
lemma givesModel_replaced {t' : Text} (hcontent : e.content = quoted model)
    (hlow : front.length + 1 ≤ e.start) (hlt : e.start < e.stop)
    (hwhole : IsModelValue body (e.start - (front.length + 1)) (e.stop - (front.length + 1)))
    (ht' : t'.bytes = front ++ 0x7B :: (bodyAfter e (front.length + 1) body ++ 0x7D :: rest))
    (hbody : level? (· == 0x7B) (· == 0x7D) (.code, 0) body = some (.code, 0)) :
    GivesModel e model t' front.length body := by
  obtain ⟨before, value, after, rfl, hliteral, halone, hstart, hstop⟩ := hwhole
  have hassoc : before ++ (modelKey ++ (value ++ after)) = (before ++ modelKey) ++ (value ++ after) := by
    simp
  have hkey : level? isOpener isCloser (.code, 0) (before ++ modelKey) = some (.code, 0) := by
    rw [level?_append_of_eq halone.level, plain_modelKey.neutral]
  have hlength : (before ++ modelKey).length = before.length + modelKey.length := List.length_append
  rw [hassoc] at ht' hbody ⊢
  refine givesModel_of_exchange ht' hbody hkey (quiet_literal hliteral) ?_ (by omega) (by omega) ?_
  · rw [hcontent]
    exact quiet_literal (isLiteral_quoted model)
  · rw [hcontent, List.append_assoc]
    exact lastModel?_append halone (isLiteral_quoted model)

/-- A member that goes in after a comma. -/
lemma givesModel_inserted {t' : Text} (has : level? isOpener isCloser (.code, 0) as = some (.code, 0))
    (hinsert : e = .insert (front.length + 1 + as.length + 1) ("model:".toList ++ quoted model ++ [',']))
    (ht' : t'.bytes = front ++ 0x7B ::
      (bodyAfter e (front.length + 1) (as ++ 0x2C :: bs) ++ 0x7D :: rest))
    (hbody : level? (· == 0x7B) (· == 0x7D) (.code, 0) (as ++ 0x2C :: bs) = some (.code, 0)) :
    GivesModel e model t' front.length (as ++ 0x2C :: bs) := by
  have hassoc : as ++ 0x2C :: bs = (as ++ [0x2C]) ++ ([] ++ bs) := by simp
  have halone := standsAlone_commas has bs
  have hcontent : Text.bytes ("model:".toList ++ quoted model ++ [',']) ++ bs =
      modelKey ++ ((quoted model).bytes ++ 0x2C :: bs) := by
    rw [Text.bytes_append, Text.bytes_append, List.append_assoc, List.append_assoc]
    rfl
  subst hinsert
  rw [hassoc] at ht' hbody ⊢
  refine givesModel_of_exchange ht' hbody halone.level ⟨fun _ => rfl, fun _ => rfl⟩
    (quiet_member model) ?_ ?_ ?_
  · simp [Edit.insert, Nat.add_assoc]
  · simp [Edit.insert, Nat.add_assoc]
  · rw [Edit.insert, hcontent, lastModel?_append halone (isLiteral_quoted model), lastModel?_comma]

/-- The edit changes nothing but the body of the object that directly holds the type, if the braces before
the type come in pairs. It gives the object the model if it replaces no part of a member. -/
theorem modelEdit?_gives (hedit : modelEdit? t agent model = .ok (some e))
    (hplace : t.find? (typeMember agent) = some place) (hholds : DirectlyHolds t o stop place)
    (hpaired : Paired 0x7B 0x7D ((t.bytes.take place).drop (o + 1))) :
    ∃ front body rest t', t.bytes = front ++ 0x7B :: (body ++ 0x7D :: rest) ∧ front.length = o ∧
      stop = o + body.length + 2 ∧ e.apply t = .ok t' ∧
      t'.bytes = front ++ 0x7B :: (bodyAfter e (o + 1) body ++ 0x7D :: rest) ∧
      ((e.start < e.stop → IsModelValue body (e.start - (o + 1)) (e.stop - (o + 1))) →
        GivesModel e model t' o body) := by
  obtain ⟨front, inner, outer, rest, hparts, rfl, rfl, hbetween, rfl⟩ := hholds.exists_parts
  have hsplit : t.bytes = front ++ 0x7B :: (inner ++ (outer ++ 0x7D :: rest)) := by
    simpa using hparts.bytes
  have hopener : enclosingOpener? t (front.length + 1 + inner.length) 0x7B 0x7D agentReach =
      some front.length := by
    obtain ⟨o, -, hopener, -⟩ := cases_of_modelEdit? hedit hplace
    rw [hopener]
    rw [enclosingOpener?_of_paired (by decide) hsplit (hbetween ▸ hpaired)] at hopener
    split_ifs at hopener
    exact hopener.symm
  obtain ⟨hliesIn, hlow, hhigh, hcases⟩ := hparts.liesIn_of_modelEdit? hedit hplace hopener hholds.closes
  have happly : ∃ t', e.apply t = .ok t' ∧
      t'.bytes = front ++ 0x7B :: (bodyAfter e (front.length + 1) (inner ++ outer) ++ 0x7D :: rest) := by
    have hbytes : t.bytes = (front ++ [0x7B]) ++ ((inner ++ outer) ++ 0x7D :: rest) := by
      simpa using hparts.bytes
    simpa using exists_apply_body hliesIn hbytes (by simpa using hlow) (by simpa using hhigh)
  obtain ⟨t', hresult, ht'⟩ := happly
  refine ⟨front, _, rest, t', hparts.bytes, rfl, rfl, hresult, ht', fun hwhole => ?_⟩
  rcases hcases with ⟨hlt, hcontent⟩ | ⟨before, after, heq, hlevel, hinsert⟩
  · exact givesModel_replaced hcontent hlow hlt (hwhole hlt) ht' hparts.body
  · have hbody := hparts.body
    rw [heq] at ht' hbody ⊢
    exact givesModel_inserted hlevel hinsert ht' hbody

/-- An object whose model is a name. -/
def named : Text := "P=\x7bagentType:\"Plan\",model:x\x7d;".toList

/-- A model that is no string is not replaced: it is still the last one, after the one that goes in. -/
theorem modelEdit?_gives_named : ∃ e t' stop, modelEdit? named "Plan" "opus" = .ok (some e) ∧
    e.apply named = .ok t' ∧ balancedEnd? t' 2 0x7B 0x7D = some stop ∧
    lastModel? ((t'.bytes.take (stop - 1)).drop 3) = some (Text.bytes ['x']) ∧
    Text.bytes ['x'] ≠ (quoted "opus").bytes := by
  have hedit : modelEdit? named "Plan" "opus" = .ok (some (.insert 20 "model:\"opus\",".toList)) := by
    decide +kernel
  have hplace : named.find? (typeMember "Plan") = some 3 := by decide +kernel
  have hholds : DirectlyHolds named 2 28 3 :=
    ⟨by decide, by decide +kernel, by decide, by decide +kernel⟩
  obtain ⟨front, body, rest, t', ht, hfront, hstop, happly, ht', hgives⟩ :=
    modelEdit?_gives hedit hplace hholds .nil
  obtain ⟨hcloses, hlast⟩ := hgives nofun
  have hinside (b : UInt8) (body rest : List UInt8) :
      ((front ++ b :: (body ++ rest)).take (2 + body.length + 2 - 1)).drop 3 = body := by
    have hsplit : front ++ b :: (body ++ rest) = (front ++ [b]) ++ (body ++ rest) := by simp
    have hlength : (front ++ [b]).length = 3 := by simp [hfront]
    rw [hsplit, List.drop_take, ← hlength, List.drop_left, List.take_left' (by omega)]
  have hbody : (named.bytes.take 27).drop 3 = body := by
    have := hinside 0x7B body (0x7D :: rest)
    rwa [← ht, ← hstop] at this
  refine ⟨_, t', _, hedit, happly, hcloses, ?_, by decide +kernel⟩
  rw [ht', hinside, hlast, ← hbody]
  decide +kernel

end Retouch.Writer.Agents
