import Retouch.Proofs.Pattern.Nearest
import Retouch.Writer.Behavior
import Retouch.Writer.Conversation

/-! Members that are rewritten next to an anchor. The member nearest to the anchor is rewritten, and that need
not be one of the object that the anchor is in: a member of a neighbor, or of an object inside, may be nearer. -/
namespace Retouch.Writer

open Anchored Behavior Conversation

variable {settings : Settings} {t needle : Text} {reach : Reach} {p : Pattern} {a : Anchored} {es : List Edit}

/-- No bracket is closed between two places that was opened before, and none is left open. -/
def Together (t : Text) (n m : Nat) : Prop := Scan.depthBetween? t (min n m) (max n m) = some 0

instance (t : Text) (n m : Nat) : Decidable (Together t n m) := inferInstanceAs (Decidable (_ = _))

/-- Of the members in reach, one in the object of the anchor is preferred to all that are not. -/
def OwnIsNearest (t : Text) (p : Pattern) (reach : Reach) (anchor : Span) : Prop :=
  ∃ m ∈ inReach t p reach anchor, Together t m.span.start anchor.start ∧
    ∀ m' ∈ inReach t p reach anchor, ¬Together t m'.span.start anchor.start → Nearer anchor m m'

/-- What is rewritten is in the object of the anchor exactly if such a member is nearest. -/
lemma together_iff (h : Finds t needle reach p a) :
    Together t a.found.span.start a.anchor.start ↔ OwnIsNearest t p reach a.anchor :=
  h.iff_exists (P := fun m => Together t m.span.start a.anchor.start)

lemma cases_of_planLimitCommand (h : planLimitCommand settings t = .ok es) :
    ∃ a stop, Finds t limitCommand ⟨300, 300⟩ enabledKey a ∧
      Scan.expressionEnd? t a.found.span.stop = some stop ∧
      es = [⟨a.found.span.stop, stop, "()=>!1".toList⟩] := by
  obtain ⟨_, -, h⟩ := Attempt.bind_eq_ok.1 h
  obtain ⟨a, hfind, h⟩ := Attempt.bind_eq_ok.1 h
  obtain ⟨stop, hstop, h⟩ := Attempt.bind_eq_ok.1 h
  cases h
  have hstop := (Option.filter_eq_some_iff.1 (Attempt.orSkip_eq_ok.1 hstop)).1
  exact ⟨a, stop, find_eq_ok_iff.1 hfind, hstop, rfl⟩

/-- The key whose value is the style of a border. -/
def borderKey : Text := "borderStyle:".toList

lemma covers_borderValue {m : Text} {spans : List Span} (h : borderValue.Covers m spans) :
    spans = [⟨borderKey.size, m.size⟩] := by
  obtain ⟨key, value, _, _, ⟨hkey, rfl⟩, ⟨_, ⟨_, _, _, _, ⟨_, rfl⟩, ⟨_, _, _, _, ⟨_, _, rfl⟩, ⟨_, rfl⟩, _, rfl⟩,
    _, rfl⟩, rfl⟩, rfl, rfl⟩ := h
  obtain rfl : key = borderKey := hkey
  simp [Span.shift]

lemma cases_of_planBorder (h : planBorder settings t = .ok es) :
    ∃ a, Finds t inputBorders ⟨300, 0⟩ borderValue a ∧
      es = [⟨a.found.span.start + borderKey.size, a.found.span.stop, "undefined".toList⟩] := by
  obtain ⟨_, -, h⟩ := Attempt.bind_eq_ok.1 h
  obtain ⟨a, hfind, h⟩ := Attempt.bind_eq_ok.1 h
  obtain ⟨value, hvalue, h⟩ := Attempt.bind_eq_ok.1 h
  cases h
  have hfinds := find_eq_ok_iff.1 hfind
  have hvalue := Attempt.orSkip_eq_ok.1 hvalue
  refine ⟨a, hfinds, ?_⟩
  obtain ⟨front, covered, rest, spans, -, hcovers, hfound⟩ := hfinds.standsIn
  obtain rfl := covers_borderValue hcovers
  rw [hfound] at hvalue ⊢
  obtain rfl := Option.some.inj hvalue
  rfl

/-- The member that is rewritten is in the object of its anchor exactly if such a member is preferred to every
other in reach, for the command and for the border. -/
theorem rewrites_own_iff :
    (planLimitCommand settings t = .ok es → ∃ a stop, Finds t limitCommand ⟨300, 300⟩ enabledKey a ∧
      Scan.expressionEnd? t a.found.span.stop = some stop ∧
      es = [⟨a.found.span.stop, stop, "()=>!1".toList⟩] ∧
      (Together t a.found.span.start a.anchor.start ↔ OwnIsNearest t enabledKey ⟨300, 300⟩ a.anchor)) ∧
    (planBorder settings t = .ok es → ∃ a, Finds t inputBorders ⟨300, 0⟩ borderValue a ∧
      es = [⟨a.found.span.start + borderKey.size, a.found.span.stop, "undefined".toList⟩] ∧
      (Together t a.found.span.start a.anchor.start ↔ OwnIsNearest t borderValue ⟨300, 0⟩ a.anchor)) := by
  constructor
  · intro h
    obtain ⟨a, stop, hfinds, hstop, rfl⟩ := cases_of_planLimitCommand h
    exact ⟨a, stop, hfinds, hstop, rfl, together_iff hfinds⟩
  · intro h
    obtain ⟨a, hfinds, rfl⟩ := cases_of_planBorder h
    exact ⟨a, hfinds, rfl, together_iff hfinds⟩

/-- The key of another command is nearer than that of the command itself. -/
def twoCommands : Text := ("C=[\x7bname:\"login\",isEnabled:f\x7d," ++
  "\x7bname:\"rate-limit-options\",type:\"local-jsx\",isEnabled:g\x7d];").toList

/-- The border of a title is nearer than that of the box around it. -/
def titledBox : Text := ("c(I,\x7bborderStyle:\"round\",title:\x7bborderStyle:\"bold\"\x7d," ++
  "borderLeft:!1,borderRight:!1,borderBottom:!0\x7d)").toList

def withoutLimits : Settings := { Settings.default with extras := { Extras.default with noLimitOptions := true } }

def withoutBorder : Settings := { Settings.default with input := ⟨true⟩ }

/-- The other command is disabled, and the title loses its border. -/
theorem not_together_nearest :
    (planLimitCommand withoutLimits twoCommands = .ok [⟨27, 28, "()=>!1".toList⟩] ∧
      ∃ a, Finds twoCommands limitCommand ⟨300, 300⟩ enabledKey a ∧
        ¬Together twoCommands a.found.span.start a.anchor.start ∧
        ¬OwnIsNearest twoCommands enabledKey ⟨300, 300⟩ a.anchor) ∧
    (planBorder withoutBorder titledBox = .ok [⟨44, 50, "undefined".toList⟩] ∧
      ∃ a, Finds titledBox inputBorders ⟨300, 0⟩ borderValue a ∧
        ¬Together titledBox a.found.span.start a.anchor.start ∧
        ¬OwnIsNearest titledBox borderValue ⟨300, 0⟩ a.anchor) := by
  constructor
  · have hplan : planLimitCommand withoutLimits twoCommands = .ok [⟨27, 28, "()=>!1".toList⟩] := by
      decide +kernel
    obtain ⟨a, stop, hfinds, -, -, hiff⟩ := rewrites_own_iff.1 hplan
    have ha : Anchored.find twoCommands "rate limit command" limitCommand ⟨300, 300⟩ enabledKey =
        .ok ⟨⟨31, 56⟩, ⟨17, 27⟩, []⟩ := by decide +kernel
    obtain rfl := Except.ok.inj ((find_eq_ok_iff.2 hfinds).symm.trans ha)
    have hapart : ¬Together twoCommands 17 31 := by decide +kernel
    exact ⟨hplan, _, hfinds, hapart, hiff.not.1 hapart⟩
  · have hplan : planBorder withoutBorder titledBox = .ok [⟨44, 50, "undefined".toList⟩] := by decide +kernel
    obtain ⟨a, hfinds, -, hiff⟩ := rewrites_own_iff.2 hplan
    have ha : Anchored.find titledBox "input box border" inputBorders ⟨300, 0⟩ borderValue =
        .ok ⟨⟨52, 96⟩, ⟨32, 50⟩, [⟨44, 50⟩]⟩ := by decide +kernel
    obtain rfl := Except.ok.inj ((find_eq_ok_iff.2 hfinds).symm.trans ha)
    have hapart : ¬Together titledBox 32 52 := by decide +kernel
    exact ⟨hplan, _, hfinds, hapart, hiff.not.1 hapart⟩

end Retouch.Writer
