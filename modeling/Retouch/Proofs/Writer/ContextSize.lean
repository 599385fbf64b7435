import Retouch.Proofs.Edit.Splice
import Retouch.Proofs.Pattern.Site
import Retouch.Proofs.Pattern.Takes
import Retouch.Proofs.Text.Occurrences
import Retouch.Writer.Behavior

/-! The function that tells the size of the context window. Only the last head of a function in reach of a place
is looked at. No head before it could do, since every head ends with a brace; so the first place with a small
function around it is found, and the guard is put at the start of its body. -/
namespace Retouch.Writer.Behavior

open Attempt

variable {settings : Settings} {t front head between front' head' between' rest : Text} {place bodyStart : Nat}

/-- The head of a function of at most one parameter. -/
def IsHead (head : Text) : Prop :=
  ∃ name parameter, head = "function ".toList ++ name ++ "(".toList ++ parameter ++ ")\x7b".toList ∧ name ≠ [] ∧
    ∀ c ∈ name ++ parameter, c = '$' ∨ isWord c = true

/-- The body that begins at an offset goes on to a place without a brace, and the head before it is in reach of
the place. -/
def OpensAt (t : Text) (place bodyStart : Nat) : Prop :=
  ∃ front head between rest, t = front ++ head ++ between ++ rest ∧ IsHead head ∧
    '\x7b' ∉ between ∧ '\x7d' ∉ between ∧ t.boundaryBefore (place - sizeReach) ≤ front.size ∧
    Text.size (front ++ head) = bodyStart ∧ Text.size (front ++ head ++ between) = place

/-! ## Heads -/

lemma takes_smallFunction {spans : List Span} :
    smallFunction.Takes front head rest spans ↔ IsHead head ∧ spans = [] := by
  have hrun {front run rest : Text} {least : Nat} : (Pattern.many (.name []) least none).Takes front run rest [] ↔
      (∀ c ∈ run, c = '$' ∨ isWord c = true) ∧ least ≤ run.length := by simp [Pattern.Takes, CharClass.contains]
  simp only [smallFunction, Pattern.all, Pattern.text, Pattern.oneOrMore, Pattern.anyNumber, Pattern.takes_literal_seq,
    Pattern.takes_many_seq, hrun]
  constructor
  · rintro ⟨_, rfl, name, _, ⟨hname, hleast⟩, rfl, _, rfl, parameter, _, ⟨hparameter, -⟩, rfl, rfl, rfl⟩
    have hne : name ≠ [] := List.length_pos_iff.1 hleast
    exact ⟨⟨name, parameter, by simp, hne, List.forall_mem_append.2 ⟨hname, hparameter⟩⟩, rfl⟩
  · rintro ⟨⟨name, parameter, rfl, hne, hmem⟩, rfl⟩
    obtain ⟨hname, hparameter⟩ := List.forall_mem_append.1 hmem
    exact ⟨_, by simp, name, _, ⟨hname, List.length_pos_iff.2 hne⟩, rfl, _, rfl, parameter, _,
      ⟨hparameter, Nat.zero_le _⟩, rfl, rfl, rfl⟩

/-- The only opening brace of a head is its last character. -/
lemma IsHead.exists_append (h : IsHead head) : ∃ start, head = start ++ ['\x7b'] ∧ '\x7b' ∉ start := by
  obtain ⟨name, parameter, rfl, -, hmem⟩ := h
  have hword : '\x7b' ∉ name ++ parameter := fun hbrace => absurd (hmem _ hbrace) (by decide)
  obtain ⟨hname, hparameter⟩ := not_or.1 (List.mem_append.not.1 hword)
  refine ⟨"function ".toList ++ name ++ "(".toList ++ parameter ++ [')'], by simp, ?_⟩
  simp [hname, hparameter]

/-- If no opening brace follows a head, then a head that does not end before it ends with it. -/
lemma IsHead.append_eq (h : IsHead head) (h' : IsHead head') (hbetween : '\x7b' ∉ between)
    (ht : front ++ head ++ between = front' ++ head' ++ between') (hlt : front.size < Text.size (front' ++ head')) :
    front' ++ head' = front ++ head := by
  obtain ⟨start, rfl, hstart⟩ := h.exists_append
  obtain ⟨start', rfl, -⟩ := h'.exists_append
  have hbraces : (front ++ start) ++ '\x7b' :: between = (front' ++ start') ++ '\x7b' :: between' := by
    simpa using ht
  rcases Nat.le_total (Text.size (front ++ start)) (Text.size (front' ++ start')) with hle | hle
  · obtain ⟨m, hm, hafter⟩ := Text.exists_append_of_size_le hbraces hle
    cases m with
    | nil => rw [← List.append_assoc, hm, List.append_nil, List.append_assoc]
    | cons c m =>
      obtain ⟨-, rfl⟩ := List.cons.inj hafter
      simp at hbetween
  · obtain ⟨m, hm, hafter⟩ := Text.exists_append_of_size_le hbraces.symm hle
    cases m with
    | nil => rw [← List.append_assoc, ← List.append_assoc, hm, List.append_nil]
    | cons c m =>
      obtain ⟨rfl, -⟩ := List.cons.inj hafter
      have hbefore : front.size ≤ Text.size (front' ++ start') := by
        have hbrace : '\x7b'.utf8Size = 1 := rfl
        rw [← List.append_assoc, Text.size_append, Text.size_cons, hbrace] at hlt
        exact Nat.le_of_lt_succ hlt
      obtain ⟨k, -, rfl⟩ := Text.exists_append_of_size_le hm hbefore
      simp at hstart

/-! ## The last head -/

/-- A head after which no opening brace follows ends where the last match does. -/
lemma exists_getLast?_matchesIn (front : Text) (h : IsHead head) (hbetween : '\x7b' ∉ between) :
    ∃ m, (smallFunction.matchesIn (front ++ head ++ between)).getLast? = some m ∧
      m.span.stop = Text.size (front ++ head) := by
  have htakes : smallFunction.Takes front head between [] := takes_smallFunction.2 ⟨h, rfl⟩
  have hempty (rest : Text) (spans : List Span) : ¬smallFunction.Takes front [] rest spans := by
    rw [takes_smallFunction]
    rintro ⟨hhead, -⟩
    obtain ⟨start, hstart, -⟩ := hhead.exists_append
    simp at hstart
  obtain ⟨held, hheld, -, hlt⟩ := Pattern.exists_holds_matchesIn htakes hempty
  obtain ⟨last, hlast⟩ := Option.ne_none_iff_exists'.1 (mt List.getLast?_eq_none_iff.1 (List.ne_nil_of_mem hheld))
  have hstop := Pattern.stop_le_of_getLast? hlast hheld
  obtain ⟨front', head', between', ht, htakes', hspan⟩ := Pattern.takesIn_of_mem_matchesIn (List.mem_of_getLast? hlast)
  have hhead' := (takes_smallFunction.1 htakes').1
  refine ⟨last, hlast, ?_⟩
  rw [hspan] at hstop ⊢
  rw [← h.append_eq hhead' hbetween ht ?_, Text.size_append]
  rw [Text.size_append]
  exact Nat.lt_of_lt_of_le hlt hstop

/-- A head that nothing opens after is the last one, and what stands between it and the place follows the last
match. -/
lemma append_inj_of_last {last : Match}
    (hlast : (smallFunction.matchesIn (front ++ head ++ between)).getLast? = some last)
    (hstop : last.span.stop = Text.size (front ++ head)) (ht : front ++ head ++ between = front' ++ head' ++ between')
    (h : IsHead head') (hbetween : '\x7b' ∉ between') : front ++ head = front' ++ head' ∧ between = between' := by
  obtain ⟨m, hm, hmstop⟩ := exists_getLast?_matchesIn front' h hbetween
  rw [← ht, hlast] at hm
  cases hm
  exact Text.append_inj_of_size ht (hstop.symm.trans hmstop)

/-! ## The search -/

/-- Where a small function opens in reach of a place, its head is in the part that is searched. -/
lemma opensAt_iff {before window after : Text} (ht : t = before ++ window ++ after)
    (hlow : before.size = t.boundaryBefore (place - sizeReach)) (hplace : Text.size (before ++ window) = place) :
    OpensAt t place bodyStart ↔ ∃ front head between, window = front ++ head ++ between ∧ IsHead head ∧
      '\x7b' ∉ between ∧ '\x7d' ∉ between ∧ before.size + Text.size (front ++ head) = bodyStart := by
  constructor
  · rintro ⟨front, head, between, rest, ht', hhead, hopen, hclose, hreach, rfl, hplace'⟩
    rw [← hlow] at hreach
    obtain ⟨hwindow, -⟩ := Text.append_inj_of_size (ht.symm.trans ht') (hplace.trans hplace'.symm)
    rw [List.append_assoc] at hwindow
    obtain ⟨front, rfl, rfl⟩ := Text.exists_append_of_size_le hwindow hreach
    exact ⟨front, head, between, by simp, hhead, hopen, hclose, by simp⟩
  · rintro ⟨front, head, between, rfl, hhead, hopen, hclose, rfl⟩
    refine ⟨before ++ front, head, between, after, by simp [ht], hhead, hopen, hclose, ?_, ?_, ?_⟩
    · rw [← hlow, Text.size_append]
      exact Nat.le_add_right _ _
    · simp
    · rw [← hplace]
      simp

lemma bodyBefore?_of_none {window : Text}
    (hwindow : t.slice? (t.boundaryBefore (place - sizeReach)) place = some window)
    (hnone : (smallFunction.matchesIn window).getLast? = none) : bodyBefore? t place = .ok none := by
  refine bind_eq_ok.2 ⟨window, demand_eq_ok.2 hwindow, ?_⟩
  rw [hnone]
  rfl

lemma bodyBefore?_of_last {window : Text} {last : Match}
    (hwindow : t.slice? (t.boundaryBefore (place - sizeReach)) place = some window)
    (hlast : (smallFunction.matchesIn window).getLast? = some last)
    (hend : t.boundaryBefore (place - sizeReach) + last.span.stop = bodyStart)
    (hbetween : t.slice? bodyStart place = some between) : bodyBefore? t place =
      .ok (if between.any fun c => c == '\x7b' || c == '\x7d' then none else some bodyStart) := by
  refine bind_eq_ok.2 ⟨window, demand_eq_ok.2 hwindow, ?_⟩
  rw [hlast]
  dsimp only
  rw [hend]
  exact bind_eq_ok.2 ⟨between, demand_eq_ok.2 hbetween, rfl⟩

/-- The search before a place tells whether a small function opens there, and where its body begins. -/
lemma exists_bodyBefore? (h : t.isBoundary place) :
    ∃ o, bodyBefore? t place = .ok o ∧ ∀ s, o = some s ↔ OpensAt t place s := by
  have hle : t.boundaryBefore (place - sizeReach) ≤ place :=
    Nat.le_trans (t.boundaryBefore_le _) (Nat.sub_le _ _)
  obtain ⟨window, hwindow⟩ := Option.isSome_iff_exists.1
    (Text.isSome_slice?_iff.2 ⟨hle, t.isBoundary_boundaryBefore _, h⟩)
  obtain ⟨before, after, ht, hlow, hplace⟩ := Text.slice?_eq_some.1 hwindow
  rw [← Text.size_append] at hplace
  simp only [opensAt_iff ht hlow hplace]
  cases hlast : (smallFunction.matchesIn window).getLast? with
  | none =>
    refine ⟨none, bodyBefore?_of_none hwindow hlast, fun s => iff_of_false nofun ?_⟩
    rintro ⟨front, head, between, rfl, hhead, hopen, -⟩
    obtain ⟨m, hm, -⟩ := exists_getLast?_matchesIn front hhead hopen
    cases hm.symm.trans hlast
  | some last =>
    obtain ⟨front, head, between, rfl, htakes, hspan⟩ :=
      Pattern.takesIn_of_mem_matchesIn (List.mem_of_getLast? hlast)
    have hstop : last.span.stop = Text.size (front ++ head) := by rw [hspan, Text.size_append]
    have hend : t.boundaryBefore (place - sizeReach) + last.span.stop =
        Text.size (before ++ (front ++ head)) := by
      rw [hstop, ← hlow, ← Text.size_append]
    have hbetween : t.slice? (Text.size (before ++ (front ++ head))) place = some between := by
      refine Text.slice?_eq_some.2 ⟨_, after, ?_, rfl, ?_⟩
      · rw [ht]
        simp
      · rw [← hplace]
        simp [Nat.add_assoc]
    refine ⟨_, bodyBefore?_of_last hwindow hlast hend hbetween, fun s => ?_⟩
    split
    · next hbrace =>
      refine iff_of_false nofun ?_
      rintro ⟨front', head', between', hparts, hhead', hopen, hclose, -⟩
      obtain ⟨-, rfl⟩ := append_inj_of_last hlast hstop hparts hhead' hopen
      obtain ⟨c, hc, hbrace⟩ := List.any_eq_true.1 hbrace
      rcases Bool.or_eq_true_iff.1 hbrace with hbrace | hbrace
      · exact hopen (beq_iff_eq.1 hbrace ▸ hc)
      · exact hclose (beq_iff_eq.1 hbrace ▸ hc)
    · next hbrace =>
      have hnot (c : Char) (hc : c = '\x7b' ∨ c = '\x7d') : c ∉ between := fun hmem =>
        hbrace (List.any_eq_true.2 ⟨c, hmem, by simpa using hc⟩)
      constructor
      · intro hs
        refine ⟨front, head, between, rfl, (takes_smallFunction.1 htakes).1, hnot _ (.inl rfl), hnot _ (.inr rfl), ?_⟩
        rw [← Option.some.inj hs, Text.size_append before]
      · rintro ⟨front', head', between', hparts, hhead', hopen, -, rfl⟩
        rw [(append_inj_of_last hlast hstop hparts hhead' hopen).1, Text.size_append before]

/-- Around a place, at most one small function opens. -/
lemma OpensAt.eq {s s' : Nat} (h : OpensAt t place s) (h' : OpensAt t place s') : s = s' := by
  have hboundary : t.isBoundary place := by
    obtain ⟨front, head, between, rest, rfl, -, -, -, -, -, rfl⟩ := h
    exact Text.isBoundary_append_size _ rest
  obtain ⟨o, -, hiff⟩ := exists_bodyBefore? hboundary
  exact Option.some.inj (((hiff s).2 h).symm.trans ((hiff s').2 h'))

lemma exists_sizeBody? (t : Text) : ∃ o, sizeBody? t = .ok o ∧
    (o = none ↔ ∀ place ∈ t.occurrences sizeReturn, ∀ s, ¬OpensAt t place s) ∧
    ∀ s, o = some s ↔ ∃ before place later, t.occurrences sizeReturn = before ++ place :: later ∧
      (∀ n ∈ before, ∀ s', ¬OpensAt t n s') ∧ OpensAt t place s :=
  exists_findSomeM? fun _ hplace => exists_bodyBefore? (Text.standsAt_of_mem_occurrences hplace).isBoundary

/-! ## The guard -/

lemma planContextSize_eq (henabled : settings.extras.contextOverride = true)
    (hname : isVariableName settings.extras.contextVariable.toList = true) {o : Option Nat}
    (ho : sizeBody? t = .ok o) : planContextSize settings t =
      (orSkip o (.noMatch "context limit function")).map fun s =>
        [.insert s (returnVariable settings.extras.contextVariable.toList)] := by
  rw [planContextSize, henabled]
  simp only [hname, ho]
  cases o <;> rfl

/-- With the override turned on, the writer succeeds if a small function opens around some place of the size. It
puts the guard at the start of the body of the first one, and leaves the rest of the text as it is. -/
theorem planContextSize_inserts (henabled : settings.extras.contextOverride = true)
    (hname : isVariableName settings.extras.contextVariable.toList = true) (r : Reporting) (t : Text) :
    ∃ places, sizeReturn.Scans t 0 places ∧
      ((∃ done, (planContextSize settings t >>= r.apply t) = .ok done) ↔
        ∃ place ∈ places, ∃ bodyStart, OpensAt t place bodyStart) ∧
      ((planContextSize settings t >>= r.apply t) = .error (.skip (.noMatch "context limit function")) ↔
        ∀ place ∈ places, ∀ bodyStart, ¬OpensAt t place bodyStart) ∧
      ∀ done, (planContextSize settings t >>= r.apply t) = .ok done →
        ∃ before place later front rest, places = before ++ place :: later ∧
          (∀ n ∈ before, ∀ bodyStart, ¬OpensAt t n bodyStart) ∧ OpensAt t place front.size ∧
          (∀ bodyStart, OpensAt t place bodyStart → bodyStart ≤ front.size) ∧ t = front ++ rest ∧
          done.text = front ++ returnVariable settings.extras.contextVariable.toList ++ rest := by
  refine ⟨t.occurrences sizeReturn, Text.scans_occurrences (by decide) t, ?_⟩
  obtain ⟨o, ho, hnone, hsome⟩ := exists_sizeBody? t
  rw [planContextSize_eq henabled hname ho]
  cases o with
  | none =>
    have hnone := hnone.1 rfl
    refine ⟨iff_of_false nofun ?_, iff_of_true rfl hnone, nofun⟩
    rintro ⟨place, hplace, bodyStart, hopens⟩
    exact hnone place hplace bodyStart hopens
  | some bodyStart =>
    obtain ⟨before, place, later, hplaces, hbefore, hopens⟩ := (hsome bodyStart).1 rfl
    have hplace : place ∈ t.occurrences sizeReturn :=
      hplaces ▸ List.mem_append_right before List.mem_cons_self
    obtain ⟨front, rest, rfl, rfl⟩ : ∃ front rest, t = front ++ rest ∧ front.size = bodyStart := by
      obtain ⟨front, head, between, rest, ht, -, -, -, -, hstart, -⟩ := hopens
      exact ⟨front ++ head, between ++ rest, by simp [ht], hstart⟩
    obtain ⟨done, hdone, htext⟩ := Edit.exists_apply_one r front [] rest
      (returnVariable settings.extras.contextVariable.toList)
    rw [List.append_nil] at hdone
    have happly : (orSkip (some front.size) (.noMatch "context limit function")).map (fun s =>
        [Edit.insert s (returnVariable settings.extras.contextVariable.toList)]) >>= r.apply (front ++ rest) =
          .ok done := hdone
    rw [happly]
    refine ⟨iff_of_true ⟨done, rfl⟩ ⟨place, hplace, _, hopens⟩, iff_of_false nofun ?_, ?_⟩
    · exact fun hnot => hnot place hplace _ hopens
    · intro _ hok
      cases hok
      exact ⟨before, place, later, front, rest, hplaces, hbefore, hopens,
        fun s hs => Nat.le_of_eq (hs.eq hopens), rfl, htext⟩

/-- The size is returned from a block first, and then from a function of its own. -/
def twoSizes : Text :=
  "function g(a)\x7bif(a)\x7breturn 200000\x7d\x7dfunction f(p)\x7breturn 200000\x7d".toList

def guardedSizes : Text :=
  ("function g(a)\x7bif(a)\x7breturn 200000\x7d\x7dfunction f(p)\x7b" ++
    "if(process.env.LIMIT)return Number(process.env.LIMIT);return 200000\x7d").toList

def sizeFromVariable : Settings :=
  { Settings.default with extras := { Extras.default with contextOverride := true, contextVariable := "LIMIT" } }

/-- The block is passed over, and the guard is put into the function. -/
theorem exists_guarded_twoSizes : sizeFromVariable.extras.contextOverride = true ∧
    isVariableName sizeFromVariable.extras.contextVariable.toList = true ∧
    ∃ before place later front rest, sizeReturn.Scans twoSizes 0 (before ++ place :: later) ∧
      (∀ n ∈ before, ∀ bodyStart, ¬OpensAt twoSizes n bodyStart) ∧ OpensAt twoSizes place front.size ∧
      twoSizes = front ++ rest ∧ guardedSizes = front ++ returnVariable "LIMIT".toList ++ rest := by
  have henabled : sizeFromVariable.extras.contextOverride = true := rfl
  have hname : isVariableName sizeFromVariable.extras.contextVariable.toList = true := by decide
  have happly : (planContextSize sizeFromVariable twoSizes >>= Reporting.apply ⟨false, false⟩ twoSizes) =
      .ok ⟨guardedSizes, []⟩ := by decide +kernel
  obtain ⟨places, hscans, -, -, hdone⟩ := planContextSize_inserts henabled hname ⟨false, false⟩ twoSizes
  obtain ⟨before, place, later, front, rest, rfl, hbefore, hopens, -, ht, htext⟩ := hdone _ happly
  have hvariable : sizeFromVariable.extras.contextVariable = "LIMIT" := rfl
  rw [hvariable] at htext
  dsimp only at htext
  exact ⟨henabled, hname, before, place, later, front, rest, hscans, hbefore, hopens, ht, htext⟩

end Retouch.Writer.Behavior
