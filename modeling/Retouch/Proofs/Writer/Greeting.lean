import Retouch.Proofs.Pattern.Opening
import Retouch.Writer.Behavior

/-! The function that is to return before it greets. It is the last one whose head is in reach before the
greeting, and that need not be the one that greets: a function inside it may begin and end before. -/
namespace Retouch.Writer.Behavior

open Scan Anchored

variable {settings : Settings} {t : Text} {es : List Edit}

lemma endsWith_namedFunction : EndsWith namedFunction '\x7b' := by
  rintro _ _ ⟨a, _, _, _, -, ⟨b, _, _, _, -, ⟨c, _, _, _, -, ⟨d, _, _, _, -, ⟨rfl, -⟩, rfl, -⟩, rfl, -⟩,
    rfl, -⟩, rfl, -⟩
  exact ⟨a ++ (b ++ (c ++ (d ++ [')']))), by simp⟩

lemma cases_of_planGreeting (h : planGreeting settings t = .ok es) :
    ∃ a, Finds t greeting ⟨2000, 0⟩ namedFunction a ∧
      es = [.insert a.found.span.stop "return null;".toList] := by
  obtain ⟨_, -, h⟩ := Attempt.bind_eq_ok.1 h
  obtain ⟨a, hfind, h⟩ := Attempt.bind_eq_ok.1 h
  dsimp only at h
  split at h
  · cases h
  · cases h
    exact ⟨a, find_eq_ok_iff.1 hfind, rfl⟩

/-- The function that is to return is the last one whose head is in reach before the greeting. The greeting is in
its body exactly if its braces close at all, and the braces before the greeting do not close it. -/
theorem planGreeting_closesPast_iff (h : planGreeting settings t = .ok es) : ∃ a brace between,
    Finds t greeting ⟨2000, 0⟩ namedFunction a ∧ a.found.span.stop = brace + 1 ∧
      (∀ m ∈ inReach t namedFunction ⟨2000, 0⟩ a.anchor, m ≠ a.found → m.Before a.found) ∧
      es = [.insert (brace + 1) "return null;".toList] ∧
      t.slice? (brace + 1) a.anchor.start = some between ∧
      (ClosesPast t 0x7B 0x7D brace a.anchor ↔
        (balancedEnd? t brace 0x7B 0x7D).isSome ∧ ClosesNothing 0x7B 0x7D between.bytes) := by
  obtain ⟨a, hfinds, rfl⟩ := cases_of_planGreeting h
  have hbrace : '\x7b' ∉ greeting := by decide
  have hcloser : 0x7D ∉ greeting.bytes := by decide
  obtain ⟨brace, between, hstop, hslice, hiff⟩ := hfinds.closesPast_iff endsWith_namedFunction hbrace
    (by decide : Text.bytes ['\x7b'] = [0x7B]) rfl rfl (by decide) hcloser
  have hlast := (hfinds.last endsWith_namedFunction hbrace).2
  exact ⟨a, brace, between, hfinds, hstop, hlast, by rw [hstop], hslice, hiff⟩

/-- A function that ends before the function around it greets. -/
def greeter : Text :=
  "function W()\x7bfunction x()\x7breturn 1\x7dreturn c(\"Welcome to \",x())\x7d".toList

def silent : Settings := { Settings.default with extras := { Extras.default with noGreeting := true } }

/-- The inner function is to return, which does not hold the greeting. -/
theorem not_closesPast_greeter : ∃ a, planGreeting silent greeter = .ok [.insert 26 "return null;".toList] ∧
    Finds greeter greeting ⟨2000, 0⟩ namedFunction a ∧ ¬ClosesPast greeter 0x7B 0x7D 25 a.anchor := by
  have hplan : planGreeting silent greeter = .ok [.insert 26 "return null;".toList] := by decide +kernel
  obtain ⟨a, brace, between, hfinds, -, -, hinsert, hslice, hiff⟩ := planGreeting_closesPast_iff hplan
  obtain rfl : brace = 25 := by simpa [Edit.insert] using hinsert.symm
  have ha : Anchored.find greeter "startup banner" greeting ⟨2000, 0⟩ namedFunction =
      .ok ⟨⟨45, 56⟩, ⟨13, 26⟩, [⟨22, 23⟩]⟩ := by decide +kernel
  obtain rfl := Except.ok.inj ((find_eq_ok_iff.2 hfinds).symm.trans ha)
  have hbetween : greeter.slice? 26 45 = some "return 1\x7dreturn c(\"".toList := by decide +kernel
  obtain rfl := Option.some.inj (hslice.symm.trans hbetween)
  refine ⟨_, hplan, hfinds, fun hpast => ?_⟩
  exact absurd (hiff.1 hpast).2 (by decide +kernel)

end Retouch.Writer.Behavior
