import Retouch.Writer.Agents
import Retouch.Writer.Behavior
import Retouch.Writer.Conversation
import Retouch.Writer.Palette
import Retouch.Writer.Thinking

/-! All writers in the order in which they run, and how they are listed. -/
namespace Retouch.Writer

def since (major minor patch : UInt32) : Release.Range := ⟨some ⟨major, minor, patch⟩, none⟩

def all : List Writer := [
  ⟨"themes", .bundle, since 1 0 0, Palette.plan⟩,
  ⟨"thinking-verbs", .structured, since 1 0 0, Thinking.planWords⟩,
  ⟨"thinking-verb-format", .structured, since 1 0 0, Thinking.planTemplate⟩,
  ⟨"spinner-phases", .structured, since 1 0 0, Thinking.planPhases⟩,
  ⟨"spinner-mirror", .conditional, since 1 0 0, Thinking.planOneWay⟩,
  ⟨"spinner-interval", .scalar, since 1 0 0, Thinking.planPeriod⟩,
  ⟨"user-message-display", .styled, since 1 0 0, Conversation.planMessage⟩,
  ⟨"input-box-border", .scalar, since 1 0 0, Conversation.planBorder⟩,
  ⟨"context-limit", .insertion, since 1 0 0, Behavior.planContextSize⟩,
  ⟨"verbose", .conditional, since 1 0 0, Behavior.planVerbosity⟩,
  ⟨"rate-limit-options", .conditional, since 1 0 0, Behavior.planLimitCommand⟩,
  ⟨"startup-banner", .insertion, since 1 0 0, Behavior.planGreeting⟩,
  ⟨"freeze-prevention", .deletion, ⟨some ⟨1, 0, 0⟩, some ⟨3, 0, 0⟩⟩, Behavior.planWaiting⟩,
  ⟨"toolsets", .insertion, since 1 0 0, Agents.planTools⟩,
  ⟨"subagent-models", .scalar, since 1 0 60, Agents.planModels⟩,
  ⟨"custom-models", .insertion, since 1 0 0, Agents.planPicker⟩]

def padTo (width : Nat) (s : String) : String := s ++ "".pushn ' ' (width - s.length)

def listLine (id : String) (releases : Release.Range) (technique : Technique) : String :=
  padTo 24 id ++ " " ++ padTo 16 releases.render ++ " " ++ technique.label

/-- A line for each writer, and one for the prompt stage. -/
def listing : List String :=
  all.map (fun w => listLine w.id w.releases w.technique) ++
    [listLine "system-prompts" .unbounded .prompt]

end Retouch.Writer
