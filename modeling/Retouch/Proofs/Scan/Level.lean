import Mathlib.Tactic.Lemma
import Mathlib.Tactic.SplitIfs
import Retouch.Scan.Bracket

/-! The state of a forward scan: whether it reads code or a string literal, and how many brackets are open.
A scan of bytes one after the other goes on from the state that the first ones leave, so bytes that leave
the state as it was can take the place of one another. -/
namespace Retouch.Scan

/-- The state after a byte. There is none after a bracket that closes where none is open. -/
def levelStep (opens closes : UInt8 → Bool) : Lex × Nat → UInt8 → Option (Lex × Nat)
  | (.code, depth), b =>
    if opens b then some (.code, depth + 1)
    else if closes b then
      match depth with
      | 0 => none
      | depth + 1 => some (.code, depth)
    else some (Lex.step .code b, depth)
  | (lex, depth), b => some (lex.step b, depth)

/-- The state after some bytes. -/
def level? (opens closes : UInt8 → Bool) (s : Lex × Nat) (bs : List UInt8) : Option (Lex × Nat) :=
  bs.foldlM (levelStep opens closes) s

/-- No quote is a bracket. -/
def Brackets (opens closes : UInt8 → Bool) : Prop :=
  ∀ b, isQuote b = true → opens b = false ∧ closes b = false

/-- Bytes that are neither brackets nor quotes. -/
def Plain (opens closes : UInt8 → Bool) (bs : List UInt8) : Prop :=
  ∀ b ∈ bs, opens b = false ∧ closes b = false ∧ isQuote b = false

/-- Bytes that a scan of code reads without a trace. -/
def Neutral (opens closes : UInt8 → Bool) (bs : List UInt8) : Prop :=
  ∀ depth, level? opens closes (.code, depth) bs = some (.code, depth)

/-- Bytes that do not leave a string literal. -/
inductive Inside (quote : UInt8) : List UInt8 → Prop
  | nil : Inside quote []
  | byte {b : UInt8} {bs : List UInt8} : b ≠ 0x5C → b ≠ quote → Inside quote bs → Inside quote (b :: bs)
  | escaped {b : UInt8} {bs : List UInt8} : Inside quote bs → Inside quote (0x5C :: b :: bs)

/-- A whole string literal. -/
def IsLiteral (bs : List UInt8) : Prop :=
  ∃ quote inner, isQuote quote = true ∧ Inside quote inner ∧ bs = quote :: (inner ++ [quote])

variable {opens closes : UInt8 → Bool} {lex lex' : Lex} {depth depth' pos stop : Nat}
  {s s' : Lex × Nat} {quote : UInt8} {as bs inner : List UInt8}

lemma ne_backslash_of_isQuote (h : isQuote quote = true) : quote ≠ 0x5C := by
  rintro rfl
  exact absurd h (by decide)

lemma Inside.append (has : Inside quote as) (hbs : Inside quote bs) : Inside quote (as ++ bs) := by
  induction has with
  | nil => exact hbs
  | byte hslash hquote _ ih => exact .byte hslash hquote ih
  | escaped _ ih => exact .escaped ih

lemma inside_of_forall (h : ∀ b ∈ bs, b ≠ 0x5C ∧ b ≠ quote) : Inside quote bs := by
  induction bs with
  | nil => exact .nil
  | cons b bs ih =>
    obtain ⟨⟨hslash, hquote⟩, hbs⟩ := List.forall_mem_cons.1 h
    exact .byte hslash hquote (ih hbs)

lemma levelStep_code (depth : Nat) (b : UInt8) : levelStep opens closes (.code, depth) b =
    if opens b then some (.code, depth + 1)
    else if closes b then
      match depth with
      | 0 => none
      | depth + 1 => some (.code, depth)
    else some (Lex.step .code b, depth) := rfl

@[simp] lemma level?_nil (s : Lex × Nat) : level? opens closes s [] = some s := rfl

lemma level?_cons (s : Lex × Nat) (b : UInt8) (bs : List UInt8) : level? opens closes s (b :: bs) =
    (levelStep opens closes s b).bind (level? opens closes · bs) := rfl

lemma level?_append (s : Lex × Nat) (as bs : List UInt8) : level? opens closes s (as ++ bs) =
    (level? opens closes s as).bind (level? opens closes · bs) := List.foldlM_append

lemma level?_append_of_eq (h : level? opens closes s as = some s') (bs : List UInt8) :
    level? opens closes s (as ++ bs) = level? opens closes s' bs := by
  rw [level?_append, h, Option.bind_some]

lemma exists_level?_of_append (h : level? opens closes s (as ++ bs) = some s') :
    ∃ between, level? opens closes s as = some between ∧ level? opens closes between bs = some s' := by
  rw [level?_append] at h
  exact Option.bind_eq_some_iff.1 h

/-- The scan knows code from literals as every scan does. -/
lemma lex_of_level? (hbrackets : Brackets opens closes) (h : level? opens closes s bs = some s') :
    s'.1 = s.1.run bs := by
  have hstep {s s' : Lex × Nat} {b : UInt8} (h : levelStep opens closes s b = some s') :
      s'.1 = s.1.step b := by
    obtain ⟨lex, depth⟩ := s
    cases lex with
    | code =>
      have hcode {b : UInt8} (h : opens b = true ∨ closes b = true) : Lex.step .code b = .code := by
        cases hquote : isQuote b with
        | true => simp [hbrackets b hquote] at h
        | false => simp [Lex.step, hquote]
      rw [levelStep_code] at h
      split_ifs at h with hopens hcloses
      · cases h
        exact (hcode (.inl hopens)).symm
      · cases depth with
        | zero => cases h
        | succ depth =>
          cases h
          exact (hcode (.inr hcloses)).symm
      · cases h
        rfl
    | literal quote =>
      cases h
      rfl
    | escape quote =>
      cases h
      rfl
  induction bs generalizing s with
  | nil =>
    cases h
    rfl
  | cons b bs ih =>
    rw [level?_cons] at h
    obtain ⟨between, hb, h⟩ := Option.bind_eq_some_iff.1 h
    rw [ih h, hstep hb, Lex.run_cons]

/-- Bytes without quotes are code. -/
lemma code_of_level? (hquotes : ∀ b ∈ bs, isQuote b = false) (h : level? opens closes (.code, depth) bs = some s) :
    s.1 = .code := by
  induction bs generalizing depth with
  | nil =>
    cases h
    rfl
  | cons b bs ih =>
    obtain ⟨hb, hbs⟩ := List.forall_mem_cons.1 hquotes
    obtain ⟨between, hstep, h⟩ := Option.bind_eq_some_iff.1 h
    have hcode : Lex.step .code b = .code := by rw [Lex.step, hb, if_neg Bool.false_ne_true]
    rw [levelStep_code, hcode] at hstep
    split_ifs at hstep
    · cases hstep
      exact ih hbs h
    · cases depth with
      | zero => cases hstep
      | succ depth =>
        cases hstep
        exact ih hbs h
    · cases hstep
      exact ih hbs h

/-- Where there is no state, a bracket has closed with none open before it. -/
lemma exists_of_level?_eq_none (h : level? opens closes s bs = none) :
    ∃ body b rest, bs = body ++ b :: rest ∧ level? opens closes s body = some (.code, 0) ∧ closes b = true := by
  induction bs generalizing s with
  | nil => cases h
  | cons b bs ih =>
    rw [level?_cons] at h
    cases hstep : levelStep opens closes s b with
    | some s' =>
      rw [hstep, Option.bind_some] at h
      obtain ⟨body, b', rest, rfl, hbody, hb'⟩ := ih h
      exact ⟨b :: body, b', rest, rfl, by rw [level?_cons, hstep, Option.bind_some, hbody], hb'⟩
    | none =>
      obtain ⟨lex, depth⟩ := s
      cases lex with
      | code =>
        rw [levelStep_code] at hstep
        split_ifs at hstep with hopens hcloses
        cases depth with
        | zero => exact ⟨[], b, bs, rfl, rfl, hcloses⟩
        | succ depth => cases hstep
      | literal quote => cases hstep
      | escape quote => cases hstep

lemma Plain.neutral (h : Plain opens closes bs) : Neutral opens closes bs := by
  intro depth
  induction bs with
  | nil => rfl
  | cons b bs ih =>
    obtain ⟨⟨hopens, hcloses, hquote⟩, hbs⟩ := List.forall_mem_cons.1 h
    simp [level?_cons, levelStep, hopens, hcloses, Lex.step, hquote, ih hbs]

lemma level?_inside (h : Inside quote inner) (depth : Nat) :
    level? opens closes (.literal quote, depth) inner = some (.literal quote, depth) := by
  induction h with
  | nil => rfl
  | byte hslash hquote _ ih => simpa [level?_cons, levelStep, Lex.step, hslash, hquote] using ih
  | escaped _ ih => simpa [level?_cons, levelStep, Lex.step] using ih

lemma IsLiteral.neutral (hbrackets : Brackets opens closes) (h : IsLiteral bs) :
    Neutral opens closes bs := by
  intro depth
  obtain ⟨quote, inner, hquote, hinner, rfl⟩ := h
  obtain ⟨hopens, hcloses⟩ := hbrackets quote hquote
  have hslash := ne_backslash_of_isQuote hquote
  rw [level?_cons, levelStep_code, hopens, hcloses]
  simp only [Bool.false_eq_true, ↓reduceIte, Lex.step, hquote, Option.bind_some]
  rw [level?_append_of_eq (level?_inside hinner depth)]
  simp [level?_cons, levelStep, Lex.step, hslash]

lemma Neutral.append (has : Neutral opens closes as) (hbs : Neutral opens closes bs) :
    Neutral opens closes (as ++ bs) := fun depth => by
  rw [level?_append_of_eq (has depth), hbs depth]

/-- Neutral bytes in code can take the place of one another. -/
theorem level?_exchange {cs ds : List UInt8} (h : level? opens closes s (as ++ (bs ++ cs)) = some s')
    (hcode : ∀ between, level? opens closes s as = some between → between.1 = .code)
    (hbs : Neutral opens closes bs) (hds : Neutral opens closes ds) :
    level? opens closes s (as ++ (ds ++ cs)) = some s' := by
  obtain ⟨⟨lex, depth⟩, has, h⟩ := exists_level?_of_append h
  obtain rfl : lex = .code := hcode _ has
  rw [level?_append_of_eq (hbs depth)] at h
  rw [level?_append_of_eq has, level?_append_of_eq (hds depth), h]

/-- Neutral bytes do not reach the bracket that closes what was open before them. -/
lemma Neutral.exists_append {closer : UInt8} {rest after : List UInt8} (h : Neutral opens closes as)
    (hopens : opens closer = false) (hcloses : closes closer = true)
    (hbs : level? opens closes (.code, depth) bs = some (.code, 0))
    (heq : bs ++ closer :: rest = as ++ after) : ∃ later, bs = as ++ later := by
  rcases List.append_eq_append_iff.1 heq with ⟨inner, rfl, hinner⟩ | ⟨later, rfl, -⟩
  · cases inner with
    | nil => exact ⟨[], by simp⟩
    | cons b inner =>
      obtain ⟨rfl, -⟩ := List.cons.inj hinner
      have hstep : levelStep opens closes (.code, 0) closer = none := by
        rw [levelStep_code]
        simp [hopens, hcloses]
      have hnone := h depth
      rw [level?_append_of_eq hbs, level?_cons, hstep] at hnone
      cases hnone
  · exact ⟨later, rfl⟩

/-! ## The scans -/

/-- What a search finds, told by what it gives: at most one place can be the one that it looks for, and where it
finds none there is no candidate. -/
lemma search_iff {P Q : Nat → Prop} {o : Option Nat} (hcandidate : ∀ n, P n → Q n)
    (hunique : ∀ m n, P m → P n → m = n) (hsome : ∀ n, o = some n → P n) (hnone : o = none → ∀ n, ¬Q n) :
    (∀ n, o = some n ↔ P n) ∧ (o = none ↔ ∀ n, ¬Q n) := by
  cases o with
  | none =>
    have hnone := hnone rfl
    exact ⟨fun n => iff_of_false nofun fun hn => hnone n (hcandidate n hn), iff_of_true rfl hnone⟩
  | some m =>
    have hm := hsome m rfl
    refine ⟨fun n => ⟨hsome n, fun hn => congrArg some (hunique m n hm hn)⟩, iff_of_false nofun ?_⟩
    exact fun hnot => hnot m (hcandidate m hm)

lemma depthAfter_code (depth : Nat) (b : UInt8) (bs : List UInt8) : depthAfter .code depth (b :: bs) =
    if isOpener b then depthAfter .code (depth + 1) bs
    else if isCloser b then
      match depth with
      | 0 => none
      | depth + 1 => depthAfter .code depth bs
    else depthAfter (Lex.step .code b) depth bs := rfl

/-- The depth after some bytes is that of the state, unless a literal is open. -/
lemma depthAfter_eq_some_iff : depthAfter lex depth bs = some depth' ↔
    level? isOpener isCloser (lex, depth) bs = some (.code, depth') := by
  induction bs generalizing lex depth with
  | nil => cases lex <;> simp [depthAfter]
  | cons b bs ih =>
    rw [level?_cons]
    cases lex with
    | code =>
      rw [depthAfter_code, levelStep_code]
      split_ifs
      · exact ih
      · cases depth with
        | zero => simp
        | succ depth => exact ih
      · exact ih
    | literal quote => exact ih
    | escape quote => exact ih

variable {opener closer : UInt8}

lemma closerFrom_code (depth pos : Nat) (b : UInt8) (bs : List UInt8) :
    closerFrom opener closer .code depth pos (b :: bs) =
      if isQuote b then closerFrom opener closer (.literal b) depth (pos + 1) bs
      else if b == opener then closerFrom opener closer .code (depth + 1) (pos + 1) bs
      else if b == closer then
        match depth with
        | 0 => none
        | 1 => some (pos + 1)
        | depth + 2 => closerFrom opener closer .code (depth + 1) (pos + 1) bs
      else closerFrom opener closer .code depth (pos + 1) bs := rfl

lemma closerFrom_opener (hopener : isQuote opener = false) (depth pos : Nat) (bs : List UInt8) :
    closerFrom opener closer .code depth pos (opener :: bs) =
      closerFrom opener closer .code (depth + 1) (pos + 1) bs := by
  rw [closerFrom_code, if_neg (by simp [hopener]), if_pos (beq_self_eq_true opener)]

lemma closerFrom_closer (hcloser : isQuote closer = false) (hne : opener ≠ closer) (depth pos : Nat)
    (bs : List UInt8) : closerFrom opener closer .code depth pos (closer :: bs) =
      match depth with
      | 0 => none
      | 1 => some (pos + 1)
      | depth + 2 => closerFrom opener closer .code (depth + 1) (pos + 1) bs := by
  rw [closerFrom_code, if_neg (by simp [hcloser]), if_neg (by simpa using hne.symm),
    if_pos (beq_self_eq_true closer)]

lemma closerFrom_byte {b : UInt8} (hquote : isQuote b = false) (hopener : b ≠ opener) (hcloser : b ≠ closer)
    (depth pos : Nat) (bs : List UInt8) : closerFrom opener closer .code depth pos (b :: bs) =
      closerFrom opener closer .code depth (pos + 1) bs := by
  rw [closerFrom_code, if_neg (by simp [hquote]), if_neg (by simpa using hopener), if_neg (by simpa using hcloser)]

lemma brackets_of_isQuote (hopener : isQuote opener = false) (hcloser : isQuote closer = false) :
    Brackets (· == opener) (· == closer) := by
  intro b hquote
  constructor
  · rw [beq_eq_false_iff_ne]
    rintro rfl
    rw [hopener] at hquote
    cases hquote
  · rw [beq_eq_false_iff_ne]
    rintro rfl
    rw [hcloser] at hquote
    cases hquote

/-- A byte that closes nothing that was open before. -/
lemma closerFrom_cons {b : UInt8} (hopener : isQuote opener = false) (hcloser : isQuote closer = false)
    (h : levelStep (· == opener) (· == closer) (lex, depth) b = some (lex', depth')) (bs : List UInt8) :
    closerFrom opener closer lex (depth + 1) pos (b :: bs) =
      closerFrom opener closer lex' (depth' + 1) (pos + 1) bs := by
  cases lex with
  | code =>
    rw [levelStep_code] at h
    rw [closerFrom_code]
    by_cases hquote : isQuote b = true
    · obtain ⟨hopens, hcloses⟩ := brackets_of_isQuote hopener hcloser b hquote
      rw [if_pos hquote]
      simp only [hopens, hcloses, Bool.false_eq_true, ↓reduceIte, Lex.step, hquote] at h
      cases h
      rfl
    · rw [if_neg hquote]
      split_ifs at h ⊢
      · cases h
        rfl
      · cases depth with
        | zero => cases h
        | succ depth =>
          cases h
          rfl
      · rw [Lex.step, if_neg hquote] at h
        cases h
        rfl
  | literal quote =>
    cases h
    rfl
  | escape quote =>
    cases h
    rfl

/-- The scan for a closer goes on from the state that the first bytes leave. -/
lemma closerFrom_append (hopener : isQuote opener = false) (hcloser : isQuote closer = false)
    (h : level? (· == opener) (· == closer) (lex, depth) as = some (lex', depth')) (bs : List UInt8) :
    closerFrom opener closer lex (depth + 1) pos (as ++ bs) =
      closerFrom opener closer lex' (depth' + 1) (pos + as.length) bs := by
  induction as generalizing lex depth pos with
  | nil =>
    cases h
    rfl
  | cons b as ih =>
    rw [level?_cons] at h
    obtain ⟨⟨between, open'⟩, hb, h⟩ := Option.bind_eq_some_iff.1 h
    rw [List.cons_append, closerFrom_cons hopener hcloser hb, ih h, List.length_cons]
    congr 1
    omega

/-- A closer is found after bytes that leave the state as it was. -/
lemma exists_of_closerFrom_eq (hopener : isQuote opener = false) (hcloser : isQuote closer = false)
    (h : closerFrom opener closer lex (depth + 1) pos bs = some stop) :
    ∃ body rest, bs = body ++ closer :: rest ∧ stop = pos + body.length + 1 ∧
      level? (· == opener) (· == closer) (lex, depth) body = some (.code, 0) := by
  induction bs generalizing lex depth pos with
  | nil => cases lex <;> cases h
  | cons b bs ih =>
    cases hb : levelStep (· == opener) (· == closer) (lex, depth) b with
    | some s =>
      obtain ⟨lex', depth'⟩ := s
      rw [closerFrom_cons hopener hcloser hb] at h
      obtain ⟨body, rest, rfl, rfl, hbody⟩ := ih h
      refine ⟨b :: body, rest, rfl, by rw [List.length_cons]; omega, ?_⟩
      rw [level?_cons, hb, Option.bind_some, hbody]
    | none =>
      -- Only the closer of what is open leaves no state.
      cases lex with
      | code =>
        rw [levelStep_code] at hb
        split_ifs at hb with hopens hcloses
        cases depth with
        | succ depth => cases hb
        | zero =>
          have hne : opener ≠ closer := by
            rintro rfl
            exact hopens hcloses
          obtain rfl : b = closer := by simpa using hcloses
          rw [closerFrom_closer hcloser hne] at h
          cases h
          exact ⟨[], bs, rfl, rfl, rfl⟩
      | literal quote => cases hb
      | escape quote => cases hb

lemma drop_of_getElem? {start : Nat} {b : UInt8} (h : bs[start]? = some b) :
    bs.drop start = b :: bs.drop (start + 1) := by
  obtain ⟨hlt, rfl⟩ := List.getElem?_eq_some_iff.1 h
  exact List.drop_eq_getElem_cons hlt

lemma exists_front_of_drop {start : Nat} {b : UInt8} {tail : List UInt8} (h : bs.drop start = b :: tail) :
    ∃ front, bs = front ++ b :: tail ∧ front.length = start := by
  have hlength := congrArg List.length h
  rw [List.length_drop, List.length_cons] at hlength
  exact ⟨bs.take start, by rw [← h, List.take_append_drop], List.length_take_of_le (by omega)⟩

/-- The closer that matches an opener is the one after bytes that leave the state as it was. -/
theorem balancedEnd?_eq_some_iff {t : Text} {start : Nat} (hopener : isQuote opener = false)
    (hcloser : isQuote closer = false) (hne : opener ≠ closer) :
    balancedEnd? t start opener closer = some stop ↔
      ∃ front body rest, t.bytes = front ++ opener :: (body ++ closer :: rest) ∧ front.length = start ∧
        stop = start + body.length + 2 ∧
        level? (· == opener) (· == closer) (.code, 0) body = some (.code, 0) := by
  rw [balancedEnd?]
  constructor
  · intro h
    split at h
    · next hhead =>
      obtain ⟨bs, hbs⟩ := List.head?_eq_some_iff.1 (beq_iff_eq.1 hhead)
      rw [hbs, closerFrom_opener hopener] at h
      obtain ⟨body, rest, rfl, rfl, hbody⟩ := exists_of_closerFrom_eq hopener hcloser h
      obtain ⟨front, hbytes, hlength⟩ := exists_front_of_drop hbs
      exact ⟨front, body, rest, hbytes, hlength, by omega, hbody⟩
    · cases h
  · rintro ⟨front, body, rest, hbytes, rfl, rfl, hbody⟩
    have hdrop : t.bytes.drop front.length = opener :: (body ++ closer :: rest) := by
      rw [hbytes, List.drop_left]
    rw [hdrop]
    rw [List.head?_cons, if_pos (beq_self_eq_true _), closerFrom_opener hopener,
      closerFrom_append hopener hcloser hbody, closerFrom_closer hcloser hne]
    exact congrArg some (by omega)

end Retouch.Scan
