import Retouch.Proofs.Text.Found

/-! Where a scan meets a needle. From left to right each place is the first one at or after the end of the one
before it, so what the scan passes over are the places within a needle that it has met. -/
namespace Retouch.Text

/-- The places where a scan from an offset on meets a needle. -/
inductive Scans (needle t : Text) : Nat → List Nat → Prop
  | done {start : Nat} : (∀ n, start ≤ n → ¬needle.StandsAt t n) → Scans needle t start []
  | found {start n : Nat} {later : List Nat} :
    start ≤ n → needle.StandsAt t n → (∀ k, start ≤ k → k < n → ¬needle.StandsAt t k) →
    Scans needle t (n + needle.size) later → Scans needle t start (n :: later)

variable {needle t front rest : Text} {start n : Nat} {places : List Nat}

/-- A scan may begin earlier where the needle does not stand. -/
lemma Scans.earlier (h : needle.Scans t start places) (hle : n ≤ start)
    (hnone : ∀ k, n ≤ k → k < start → ¬needle.StandsAt t k) : needle.Scans t n places := by
  have hbefore {stop : Nat} (hstop : ∀ k, start ≤ k → k < stop → ¬needle.StandsAt t k) (k : Nat)
      (hk : n ≤ k) (hlt : k < stop) : ¬needle.StandsAt t k := by
    rcases Nat.lt_or_ge k start with hkstart | hkstart
    · exact hnone k hk hkstart
    · exact hstop k hkstart hlt
  cases h with
  | done hlater => exact .done fun k hk => hbefore (fun k hk _ => hlater k hk) k hk k.lt_succ_self
  | found hstart hstands hfirst hlater =>
    exact .found (Nat.le_trans hle hstart) hstands (hbefore hfirst) hlater

/-- The text leaves no choice to a scan. -/
lemma Scans.eq {places' : List Nat} (h : needle.Scans t start places) (h' : needle.Scans t start places') :
    places = places' := by
  induction h generalizing places' with
  | done hnone =>
    cases h' with
    | done => rfl
    | found hstart hstands => exact absurd hstands (hnone _ hstart)
  | @found start n later hstart hstands hfirst hlater ih =>
    cases h' with
    | done hnone => exact absurd hstands (hnone n hstart)
    | @found _ n' later' hstart' hstands' hfirst' hlater' =>
      obtain rfl : n = n' := by
        rcases Nat.lt_trichotomy n n' with hlt | heq | hlt
        · exact absurd hstands (hfirst' n hstart hlt)
        · exact heq
        · exact absurd hstands' (hfirst n' hstart' hlt)
      rw [ih hlater']

lemma standsAt_append_iff :
    needle.StandsAt (front ++ rest) front.size ↔ (after? rest needle).isSome := by
  rw [Option.isSome_iff_exists]
  simp only [after?_eq_some]
  constructor
  · rintro ⟨a, b, h, hsize⟩
    rw [List.append_assoc] at h
    exact ⟨b, (append_inj_of_size h hsize.symm).2⟩
  · rintro ⟨b, rfl⟩
    exact ⟨front, b, by rw [List.append_assoc], rfl⟩

/-- No needle stands within a character. -/
lemma not_standsAt_of_lt {c : Char} (hlt : front.size < n) (hn : n < front.size + c.utf8Size) :
    ¬needle.StandsAt (front ++ c :: rest) n := by
  intro h
  obtain ⟨a, b, hab, rfl⟩ := isBoundary_iff.1 h.isBoundary
  have heq := eq_append_of_size_le (c := c) (hab.symm.trans (List.append_cons front c rest)) hlt
    (by simpa using Nat.le_of_lt hn)
  rw [heq, size_append, size_cons, size_nil] at hn
  omega

/-- What is left to be passed over is a part of the rest. -/
lemma scans_occurrencesFrom (hneedle : needle ≠ []) (front rest : Text) (skip : Nat) :
    needle.Scans (front ++ rest) (front.size + size (rest.take skip))
      (occurrencesFrom needle skip front.size rest) := by
  induction rest generalizing front skip with
  | nil =>
    rw [occurrencesFrom]
    refine .done fun n hn h => ?_
    have hstop := le_size_of_isBoundary h.isBoundary_stop
    have hpos := Nat.pos_of_ne_zero (mt size_eq_zero.1 hneedle)
    rw [List.append_nil] at hstop
    omega
  | cons c rest ih =>
    have hsize : size (front ++ [c]) = front.size + c.utf8Size := by simp
    have hlater (skip : Nat) : needle.Scans (front ++ c :: rest) (front.size + c.utf8Size + size (rest.take skip))
        (occurrencesFrom needle skip (front.size + c.utf8Size) rest) := by
      rw [List.append_cons, ← hsize]
      exact ih (front ++ [c]) skip
    cases skip with
    | succ skip =>
      rw [occurrencesFrom, List.take_succ_cons, size_cons, ← Nat.add_assoc]
      exact hlater skip
    | zero =>
      rw [occurrencesFrom, List.take_zero, size_nil, Nat.add_zero]
      split
      · next b hafter =>
        have hstands : needle.StandsAt (front ++ c :: rest) front.size :=
          standsAt_append_iff.2 (Option.isSome_of_eq_some hafter)
        refine .found (Nat.le_refl _) hstands (fun k hk hlt => absurd hlt (Nat.not_lt.2 hk)) ?_
        obtain ⟨x, needle, rfl⟩ := List.exists_cons_of_ne_nil hneedle
        obtain ⟨rfl, rfl⟩ := List.cons.inj (after?_eq_some.1 hafter)
        have hneedle : List.take needle.length (needle ++ b) = needle := List.take_left
        have := hlater needle.length
        rwa [List.append_eq, hneedle, Nat.add_assoc, ← size_cons] at this
      · next hafter =>
        have hnone : ¬needle.StandsAt (front ++ c :: rest) front.size := by
          rw [standsAt_append_iff, hafter]
          exact Bool.false_ne_true
        refine (hlater 0).earlier (Nat.le_add_right_of_le (Nat.le_add_right _ _)) fun k hk hlt => ?_
        rw [List.take_zero, size_nil, Nat.add_zero] at hlt
        rcases Nat.lt_or_eq_of_le hk with hk | rfl
        · exact not_standsAt_of_lt hk hlt
        · exact hnone

/-- Searching for a needle is scanning the text for it. -/
theorem scans_occurrences (hneedle : needle ≠ []) (t : Text) : needle.Scans t 0 (t.occurrences needle) := by
  have h := scans_occurrencesFrom hneedle [] t 0
  rwa [List.nil_append, List.take_zero, size_nil, Nat.add_zero] at h

end Retouch.Text
