import Conductor.Config.Basic
import Conductor.Run.Engine

/-! The engine that a configuration describes. -/

namespace Conductor.Engine

def ofConfig (c : Config) (dispatcher : Dispatcher) : Engine :=
  ⟨.standard dispatcher c.executor.webhookTimeout, c.executor.maxStepExecutions⟩

end Conductor.Engine
