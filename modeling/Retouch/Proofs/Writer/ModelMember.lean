import Retouch.Proofs.Json.RoundTrip
import Retouch.Proofs.Scan.Literal
import Retouch.Proofs.Scan.Members
import Retouch.Writer.Agents

/-! Model members of an object literal: members whose key is that of the model. The last one counts. A
member that stands alone is the last one, whatever comes before it, unless another comes after it; and what
is written for one means nothing to a scan for brackets. -/
namespace Retouch.Writer.Agents

open Scan

/-- White space that may stand around a key or a value. -/
def isSpace (b : UInt8) : Bool := b == 0x20 || (0x09 ≤ b && b ≤ 0x0D)

def Blank (bs : List UInt8) : Prop := ∀ b ∈ bs, isSpace b = true

def stripped (bs : List UInt8) : List UInt8 :=
  ((bs.dropWhile isSpace).reverse.dropWhile isSpace).reverse

def modelKey : List UInt8 := Text.bytes "model:".toList

/-- The value of a member whose key is that of the model. -/
def modelValue? (member : List UInt8) : Option (List UInt8) :=
  if modelKey.isPrefixOf (stripped member) then some (stripped ((stripped member).drop modelKey.length))
  else none

/-- The value of the last model member of an object's body. -/
def lastModel? (body : List UInt8) : Option (List UInt8) :=
  ((members body).filterMap modelValue?).getLast?

/-- Nothing but white space is between the commas around a place of a body and the parts before and
after it. -/
structure StandsAlone (before after : List UInt8) : Prop where
  level : level? isOpener isCloser (.code, 0) before = some (.code, 0)
  starts : ∀ member ∈ (members before).getLast?, Blank member
  ends : ∀ member ∈ (members after).head?, Blank member

/-- The part of a body between two offsets is the value of a whole model member. -/
def IsModelValue (body : List UInt8) (start stop : Nat) : Prop :=
  ∃ before value after, body = before ++ (modelKey ++ (value ++ after)) ∧ IsLiteral value ∧
    StandsAlone before after ∧ start = before.length + modelKey.length ∧ stop = start + value.length

variable {before after value as bs cs : List UInt8}

lemma blank_nil : Blank [] := nofun

lemma stripped_blank (h : Blank bs) : stripped bs = [] := by
  have hnone : (bs ++ []).dropWhile isSpace = [] := List.dropWhile_append_of_pos h
  rw [List.append_nil] at hnone
  rw [stripped, hnone]
  rfl

/-- White space at the ends is stripped, and no more. -/
lemma stripped_append (has : Blank as) (hcs : Blank cs) {x y : UInt8} (hx : isSpace x = false)
    (hy : isSpace y = false) {bs : List UInt8} :
    stripped (as ++ (x :: (bs ++ [y]) ++ cs)) = x :: (bs ++ [y]) := by
  have hreverse : Blank cs.reverse := fun b hb => hcs b (List.mem_reverse.1 hb)
  rw [stripped, List.dropWhile_append_of_pos has, List.cons_append, List.dropWhile_cons_of_neg (by simp [hx]),
    ← List.cons_append, List.reverse_append, List.dropWhile_append_of_pos hreverse]
  simp [hy]

lemma modelValue?_blank (h : Blank bs) : modelValue? bs = none := by
  rw [modelValue?, stripped_blank h]
  rfl

lemma IsLiteral.exists_eq (h : IsLiteral value) : ∃ quote inner, isSpace quote = false ∧
    value = quote :: (inner ++ [quote]) := by
  obtain ⟨quote, inner, hquote, -, rfl⟩ := h
  refine ⟨quote, inner, ?_, rfl⟩
  simp only [isQuote, Bool.or_eq_true, beq_iff_eq] at hquote
  rcases hquote with (rfl | rfl) | rfl <;> decide

lemma modelValue?_append (has : Blank as) (hvalue : IsLiteral value) (hcs : Blank cs) :
    modelValue? (as ++ (modelKey ++ (value ++ cs))) = some value := by
  obtain ⟨quote, inner, hquote, rfl⟩ := IsLiteral.exists_eq hvalue
  have hkey : modelKey = 0x6D :: [0x6F, 0x64, 0x65, 0x6C, 0x3A] := by decide
  have hmember : stripped (as ++ (modelKey ++ (quote :: (inner ++ [quote]) ++ cs))) =
      modelKey ++ quote :: (inner ++ [quote]) := by
    have hends : stripped (as ++ (0x6D :: (([0x6F, 0x64, 0x65, 0x6C, 0x3A] ++ quote :: inner) ++ [quote]) ++
        cs)) = 0x6D :: (([0x6F, 0x64, 0x65, 0x6C, 0x3A] ++ quote :: inner) ++ [quote]) :=
      stripped_append has hcs (by decide) hquote
    rw [hkey]
    simpa using hends
  have hstripped : stripped ([] ++ (quote :: (inner ++ [quote]) ++ [])) = quote :: (inner ++ [quote]) :=
    stripped_append blank_nil blank_nil hquote hquote
  rw [List.nil_append, List.append_nil] at hstripped
  rw [modelValue?, hmember, if_pos (List.isPrefixOf_iff_prefix.2 (List.prefix_append _ _)),
    List.drop_left, hstripped]

lemma plain_modelKey : Plain isOpener isCloser modelKey := by
  have hall : modelKey.all fun b => !isOpener b && !isCloser b && !isQuote b := by decide
  intro b hb
  simpa [and_assoc] using List.all_eq_true.1 hall b hb

/-- A model member that stands alone gives the last value, unless there is one after it. -/
theorem lastModel?_append (h : StandsAlone before after) (hvalue : IsLiteral value) :
    lastModel? (before ++ (modelKey ++ (value ++ after))) = some ((lastModel? after).getD value) := by
  obtain ⟨done, last, hbefore⟩ := exists_membersFrom_append h.level []
  obtain ⟨first, later, hafter⟩ := membersFrom_eq_cons (some (.code, 0)) after
  have hlast : Blank last := by
    refine h.starts last ?_
    have hmembers := hbefore []
    rw [List.append_nil, membersFrom] at hmembers
    rw [members, hmembers, List.getLast?_concat]
    rfl
  have hfirst : Blank first := by
    refine h.ends first ?_
    rw [members, hafter, List.nil_append]
    rfl
  have hmembers : members (before ++ (modelKey ++ (value ++ after))) =
      done ++ (last ++ (modelKey ++ (value ++ first))) :: later := by
    rw [members, hbefore, membersFrom_plain plain_modelKey (by decide), membersFrom_literal hvalue,
      hafter]
    simp
  have hlater : lastModel? after = (later.filterMap modelValue?).getLast? := by
    rw [lastModel?, members, hafter, List.nil_append, List.filterMap_cons, modelValue?_blank hfirst]
  rw [lastModel?, hmembers, hlater, List.filterMap_append, List.filterMap_cons,
    modelValue?_append hlast hvalue hfirst, List.getLast?_append, List.getLast?_cons]
  rfl

/-- A comma ends the member before it and starts the one after it. -/
lemma standsAlone_commas (h : level? isOpener isCloser (.code, 0) as = some (.code, 0)) (bs : List UInt8) :
    StandsAlone (as ++ [0x2C]) (0x2C :: bs) := by
  refine ⟨?_, fun member hmember => ?_, fun member hmember => ?_⟩
  · rw [level?_append_of_eq h]
    rfl
  · obtain ⟨done, last, hmembers⟩ := exists_membersFrom_append h []
    rw [members, hmembers, membersFrom_comma, List.getLast?_append] at hmember
    cases hmember
    exact blank_nil
  · rw [members, membersFrom_comma] at hmember
    cases hmember
    exact blank_nil

lemma lastModel?_comma (body : List UInt8) : lastModel? (0x2C :: body) = lastModel? body := by
  rw [lastModel?, members, membersFrom_comma, List.filterMap_cons, modelValue?_blank blank_nil, lastModel?]

/-! ## Literals that are written -/

lemma inside_escapedChar (c : Char) : Inside 0x22 (Text.bytes (Json.escapedChar c)) := by
  have hshort {b : UInt8} : Inside 0x22 [0x5C, b] := .escaped .nil
  unfold Json.escapedChar
  split
  case h_8 hquote hslash _ _ _ _ _ =>
    split
    · next hlow => exact inside_unitEscape rfl (by omega)
    · have hsingle : Text.bytes [c] = String.utf8EncodeChar c := by simp [Text.bytes]
      rw [hsingle]
      exact inside_utf8EncodeChar hslash hquote rfl (by decide)
  all_goals exact hshort

lemma isLiteral_quoted (s : String) : IsLiteral (Text.bytes (quoted s)) := by
  have hinner : Inside 0x22 (Text.bytes (s.toList.flatMap Json.escapedChar)) := by
    rw [Text.bytes, List.flatMap_assoc]
    exact inside_flatMap fun c _ => inside_escapedChar c
  refine ⟨0x22, _, rfl, hinner, ?_⟩
  have hbytes := Json.Read.bytes_quoted s.toList []
  rwa [List.append_nil] at hbytes

/-- Bytes that neither scan for brackets notices. -/
def Quiet (bs : List UInt8) : Prop :=
  Neutral isOpener isCloser bs ∧ Neutral (· == 0x7B) (· == 0x7D) bs

lemma brackets_braces : Brackets (· == 0x7B) (· == 0x7D) := brackets_of_isQuote rfl rfl

lemma Quiet.append (has : Quiet as) (hbs : Quiet bs) : Quiet (as ++ bs) :=
  ⟨has.1.append hbs.1, has.2.append hbs.2⟩

lemma quiet_of_plain (h : Plain isOpener isCloser bs) : Quiet bs := by
  refine ⟨h.neutral, Plain.neutral fun b hb => ?_⟩
  obtain ⟨hopens, hcloses, hquote⟩ := h b hb
  simp only [isOpener, isCloser, Bool.or_eq_false_iff] at hopens hcloses
  exact ⟨hopens.2, hcloses.2, hquote⟩

lemma quiet_literal (h : IsLiteral bs) : Quiet bs :=
  ⟨h.neutral brackets_isOpener, h.neutral brackets_braces⟩

lemma quiet_of_all (h : (bs.all fun b => !isOpener b && !isCloser b && !isQuote b) = true) : Quiet bs := by
  refine quiet_of_plain fun b hb => ?_
  simpa [and_assoc] using List.all_eq_true.1 h b hb

/-- A model member as it is inserted. -/
lemma quiet_member (model : String) :
    Quiet (Text.bytes ("model:".toList ++ quoted model ++ [','])) := by
  simp only [Text.bytes_append]
  exact ((quiet_of_all (by decide)).append (quiet_literal (isLiteral_quoted model))).append
    (quiet_of_all (by decide))

/-- The member that gives an agent its type. -/
def typeMember (agent : String) : Text := "agentType:".toList ++ quoted agent

lemma quiet_typeMember (agent : String) : Quiet (Text.bytes (typeMember agent)) := by
  unfold typeMember
  rw [Text.bytes_append]
  exact (quiet_of_all (by decide +kernel)).append (quiet_literal (isLiteral_quoted agent))

end Retouch.Writer.Agents
