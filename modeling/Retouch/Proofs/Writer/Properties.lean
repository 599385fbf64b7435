import Retouch.Proofs.Scan.Members
import Retouch.Proofs.Text.Pieces
import Retouch.Proofs.Text.Utf8
import Retouch.Writer.Conversation

/-! Properties that are read from a list of pairs. The list is split at every comma, also in brackets and strings,
so a value is read up to its first comma, and what follows it may be taken for a pair. -/
namespace Retouch.Writer.Conversation

open Scan Text

/-- A property as it is written. Its name has neither a comma nor a colon. -/
structure Pair where
  name : Text
  value : Text
  comma : ',' ∉ name
  colon : ':' ∉ name

namespace Pair

def text (p : Pair) : Text := p.name ++ ':' :: p.value

/-- What is read of the value. -/
def read (p : Pair) : Text := trim (p.value.takeWhile (· != ','))

end Pair

/-- The pairs are the parts of a text between the commas that stand within no bracket and no string. -/
def Lists (props : Text) (ps : List Pair) : Prop :=
  if props = [] then ps = [] else members props.bytes = ps.map (·.text.bytes)

/-- The value of the first pair with a name. -/
def firstValue? (ps : List Pair) (key : Text) : Option Text :=
  (ps.find? (trim ·.name = key)).map (trim ·.value)

/-- The value that is read from a piece of the list. -/
def valueIn? (key piece : Text) : Option Text := do
  let (name, value) ← splitOnce? piece [':']
  if trim name = key then some (trim value) else none

/-- The value that is read for a name from within the value of a pair, past its first comma. -/
def Pair.inner? (p : Pair) (key : Text) : Option Text :=
  (splitAll p.text (· == ',')).tail.findSome? (valueIn? key)

/-- The pairs before the first one with a name. -/
def pairsBefore (ps : List Pair) (key : Text) : List Pair := ps.takeWhile (trim ·.name ≠ key)

variable {props key : Text} {ps : List Pair} {p : Pair}

lemma bytes_join (ts : List Text) : (join [','] ts).bytes = [0x2C].intercalate (ts.map bytes) := by
  have hcomma : bytes [','] = [0x2C] := by decide
  induction ts with
  | nil => rfl
  | cons t ts ih =>
    cases ts with
    | nil => simp [join]
    | cons u ts =>
      rw [join_cons_cons, bytes_append, bytes_append, ih, hcomma, List.map_cons, List.map_cons, List.map_cons,
        List.intercalate_cons_cons, List.append_assoc]

lemma Lists.eq_join (h : Lists props ps) : props = join [','] (ps.map Pair.text) := by
  unfold Lists at h
  split at h
  · next hnil =>
    rw [hnil, h]
    rfl
  · apply Utf8.bytes_injective
    rw [bytes_join, List.map_map]
    exact (intercalate_membersFrom _ [] props.bytes).symm.trans (congrArg _ h)

lemma valueIn?_append {name : Text} (h : ':' ∉ name) (value : Text) :
    valueIn? key (name ++ ':' :: value) = if trim name = key then some (trim value) else none := by
  rw [valueIn?, splitOnce?_append h]
  rfl

lemma Pair.inner?_eq_none (h : ',' ∉ p.value) (key : Text) : p.inner? key = none := by
  have hpieces : splitAll p.text (· == ',') = [p.text] := by
    refine splitAll_of_not_mem fun c hc => ?_
    rw [beq_eq_false_iff_ne]
    rintro rfl
    rcases List.mem_append.1 hc with hname | hc
    · exact p.comma hname
    · rcases List.mem_cons.1 hc with hcolon | hvalue
      · exact absurd hcolon (by decide)
      · exact h hvalue
  rw [Pair.inner?, hpieces]
  rfl

/-- A pair gives its value up to the first comma to its own name, and what is within the value to others. -/
lemma findSome?_pieces (p : Pair) (key : Text) : (splitAll p.text (· == ',')).findSome? (valueIn? key) =
    if trim p.name = key then some p.read else p.inner? key := by
  have hname : ∀ c ∈ p.name, (!(c == ',')) = true := by
    intro c hc
    rw [Bool.not_eq_true', beq_eq_false_iff_ne]
    rintro rfl
    exact p.comma hc
  obtain ⟨later, hpieces⟩ := exists_splitAll_eq_cons (· == ',') p.text
  have hfirst : p.text.takeWhile (fun c => !(c == ',')) = p.name ++ ':' :: p.value.takeWhile (· != ',') := by
    rw [Pair.text, List.takeWhile_append_of_pos hname, List.takeWhile_cons_of_pos (by decide)]
    rfl
  rw [Pair.inner?, hpieces, hfirst, List.findSome?_cons, valueIn?_append p.colon]
  by_cases h : trim p.name = key
  · rw [if_pos h, if_pos h]
    rfl
  · rw [if_neg h, if_neg h]
    rfl

lemma valueOf?_join (ps : List Pair) (key : Text) : valueOf? (join [','] (ps.map Pair.text)) key =
    ps.findSome? fun p => (splitAll p.text (· == ',')).findSome? (valueIn? key) := by
  cases ps with
  | nil => rfl
  | cons p ps =>
    change (splitAll _ _).findSome? (valueIn? key) = _
    rw [splitAll_join rfl (by simp), List.flatMap_map, findSome?_flatMap]

lemma Pair.read_eq_iff (p : Pair) : p.read = trim p.value ↔ ',' ∉ p.value := by
  constructor
  · intro h hmem
    have hread : ',' ∈ p.read := by
      rw [h]
      exact (mem_trim_iff (by decide)).2 hmem
    have := List.mem_takeWhile_imp ((mem_trim_iff (by decide)).1 hread)
    simp at this
  · intro h
    rw [Pair.read, List.takeWhile_eq_self_iff.2]
    intro c hc
    rw [bne_iff_ne]
    rintro rfl
    exact h hc

/-- What is within the values before comes first, then the first pair with the name, up to its first comma. -/
lemma Lists.valueOf?_eq (h : Lists props ps) (key : Text) : valueOf? props key =
    ((pairsBefore ps key).findSome? (·.inner? key)).or ((ps.find? (trim ·.name = key)).map Pair.read) := by
  rw [h.eq_join, valueOf?_join]
  clear h
  induction ps with
  | nil => rfl
  | cons p ps ih =>
    rw [List.findSome?_cons, findSome?_pieces, pairsBefore]
    by_cases hname : trim p.name = key
    · rw [if_pos hname, List.takeWhile_cons_of_neg (by simpa using hname),
        List.find?_cons_of_pos (by simpa using hname)]
      rfl
    · rw [if_neg hname, ih, List.takeWhile_cons_of_pos (by simpa using hname),
        List.find?_cons_of_neg (by simpa using hname), List.findSome?_cons, pairsBefore]
      cases p.inner? key <;> rfl

/-- Where the values before give nothing, a value is read whole exactly if it has no comma. -/
lemma Lists.valueOf?_eq_firstValue?_iff (h : Lists props ps)
    (hinner : (pairsBefore ps key).findSome? (·.inner? key) = none) :
    valueOf? props key = firstValue? ps key ↔ ∀ p ∈ ps.find? (trim ·.name = key), ',' ∉ p.value := by
  rw [h.valueOf?_eq, hinner, Option.none_or, firstValue?]
  cases ps.find? (trim ·.name = key) with
  | none => simp
  | some p => simpa using p.read_eq_iff

lemma findSome?_inner?_eq_none {qs : List Pair} (h : ∀ q ∈ qs, ',' ∉ q.value) (key : Text) :
    qs.findSome? (·.inner? key) = none :=
  List.findSome?_eq_none_iff.2 fun q hq => Pair.inner?_eq_none (h q hq) key

/-- Of the values with a comma, the first one is not read whole. -/
lemma Lists.forall_not_mem (h : Lists props ps) (hnodup : (ps.map (trim ·.name)).Nodup)
    (hall : ∀ key, valueOf? props key = firstValue? ps key) : ∀ p ∈ ps, ',' ∉ p.value := by
  intro q hq hmem
  obtain ⟨p, hp⟩ := Option.isSome_iff_exists.1
    (List.find?_isSome.2 ⟨q, hq, decide_eq_true hmem⟩ : (ps.find? (',' ∈ ·.value)).isSome)
  obtain ⟨hcomma, front, back, rfl, hfront⟩ := List.find?_eq_some_iff_append.1 hp
  have hother : ∀ q ∈ front, decide (trim q.name ≠ trim p.name) = true := by
    intro q hq
    rw [List.map_append, List.nodup_append] at hnodup
    exact decide_eq_true (hnodup.2.2 _ (List.mem_map_of_mem hq) _ List.mem_cons_self)
  have hbefore : pairsBefore (front ++ p :: back) (trim p.name) = front := by
    rw [pairsBefore, List.takeWhile_append_of_pos hother, List.takeWhile_cons_of_neg (by simp), List.append_nil]
  have hinner : (pairsBefore (front ++ p :: back) (trim p.name)).findSome? (·.inner? (trim p.name)) = none := by
    rw [hbefore]
    exact findSome?_inner?_eq_none (fun q hq => by simpa using hfront q hq) _
  have hfirst : (front ++ p :: back).find? (trim ·.name = trim p.name) = some p :=
    List.find?_eq_some_iff_append.2 ⟨by simp, front, back, rfl, fun q hq => by simpa using hother q hq⟩
  exact (h.valueOf?_eq_firstValue?_iff hinner).1 (hall _) p hfirst (of_decide_eq_true hcomma)

lemma colorProperty_same_iff {name : String} {o : Option Text} :
    colorProperty name sameColor props = (o.map (property name)).toList ↔ valueOf? props name.toList = o := by
  have hinjective (v w : Text) : property name v = property name w ↔ v = w := by simp [property]
  rw [colorProperty, if_pos rfl]
  cases valueOf? props name.toList <;> cases o <;> simp [hinjective]

/-- What is read for a name is within a value before the first pair with that name, if a part of such a value can
be taken for a pair; else the value of that pair is read whole exactly if it has no comma. If no two pairs have the
same name, all values are read whole exactly if none has a comma. A color stays as it is if its value is read
whole. -/
theorem valueOf?_whole_iff (h : Lists props ps) :
    (∀ key value, (pairsBefore ps key).findSome? (·.inner? key) = some value → valueOf? props key = some value) ∧
    (∀ key, (pairsBefore ps key).findSome? (·.inner? key) = none →
      (valueOf? props key = firstValue? ps key ↔ ∀ p ∈ ps.find? (trim ·.name = key), ',' ∉ p.value)) ∧
    ((ps.map (trim ·.name)).Nodup →
      ((∀ key, valueOf? props key = firstValue? ps key) ↔ ∀ p ∈ ps, ',' ∉ p.value)) ∧
    ∀ name : String, colorProperty name sameColor props =
        ((firstValue? ps name.toList).map (property name)).toList ↔
      valueOf? props name.toList = firstValue? ps name.toList := by
  refine ⟨fun key value hinner => ?_, fun key hinner => h.valueOf?_eq_firstValue?_iff hinner,
    fun hnodup => ⟨h.forall_not_mem hnodup, fun hall key => ?_⟩, fun name => colorProperty_same_iff⟩
  · rw [h.valueOf?_eq, hinner, Option.some_or]
  · have hinner : (pairsBefore ps key).findSome? (·.inner? key) = none :=
      findSome?_inner?_eq_none (fun p hp => hall p ((List.takeWhile_sublist _).mem hp)) key
    exact (h.valueOf?_eq_firstValue?_iff hinner).2 fun p hp => hall p (List.mem_of_find?_eq_some hp)

/-- The color is the value of a call with two arguments. -/
def calledColor : Text := "backgroundColor:\"userMessageBackground\",color:f(1,2)".toList

def calledColorPairs : List Pair :=
  [⟨"backgroundColor".toList, "\"userMessageBackground\"".toList, by decide, by decide⟩,
    ⟨"color".toList, "f(1,2)".toList, by decide, by decide⟩]

/-- The background is read whole and the color is not, so the color does not stay as it is. -/
theorem valueOf?_calledColor : Lists calledColor calledColorPairs ∧
    valueOf? calledColor "backgroundColor".toList = firstValue? calledColorPairs "backgroundColor".toList ∧
    valueOf? calledColor "color".toList ≠ firstValue? calledColorPairs "color".toList ∧
    colorProperty "color" sameColor calledColor ≠
      ((firstValue? calledColorPairs "color".toList).map (property "color")).toList := by
  have hlists : Lists calledColor calledColorPairs := by
    unfold Lists
    decide +kernel
  obtain ⟨-, hkey, -, hcolor⟩ := valueOf?_whole_iff hlists
  have hbackground := (hkey "backgroundColor".toList (by decide +kernel)).2 (by decide +kernel)
  have hcut : ¬valueOf? calledColor "color".toList = firstValue? calledColorPairs "color".toList :=
    fun heq => absurd ((hkey "color".toList (by decide +kernel)).1 heq) (by decide +kernel)
  exact ⟨hlists, hbackground, hcut, fun hsame => hcut ((hcolor "color").1 hsame)⟩

end Retouch.Writer.Conversation
