import BlizzardBridge.Dmx
import BlizzardBridge.EventMachine

/-! The sending tasks of the Art-Net node and the one task that controls them. A step
of the machine is one access to a shared variable, so that the tasks interleave at
every point where the code can lose the processor. -/
namespace BlizzardBridge
open EventMachine

/-- The next step of a task that runs `sendArtnetLoop`. A task that has ended is gone. -/
inductive LoopStep where
  -- `send_active = 1;` is still to come
  | created
  | testing
  | sending
  | ending
  deriving DecidableEq, Repr

/-- Where the control task is in one of its calls. -/
inductive ControlStep where
  | idle
  -- `startDMXArtnet` before and behind `ARTNET._direction = direction;`
  | starting (dir : Direction)
  | enabling
  | creating
  -- `while(send_active)` of `changeDirectionArtnet`
  | waiting
  deriving DecidableEq, Repr

structure NodeTasks where
  direction : Direction
  enabled : Bool
  sendActive : Bool
  loops : List LoopStep
  control : ControlStep
  deriving DecidableEq, Repr

inductive TaskEvent where
  | startDMXArtnet (dir : Direction)
  | changeDirectionArtnet (dir : Direction)
  -- the next step of the call that the control task is in
  | control
  -- the next step of a sending task
  | loop (i : ℕ)
  deriving DecidableEq, Repr

/-- What leaves the node. -/
inductive TaskEffect where
  | artDmx
  deriving DecidableEq, Repr

namespace NodeTasks

def boot : NodeTasks where
  direction := .receive
  enabled := false
  sendActive := false
  loops := []
  control := .idle

def createLoop (s : NodeTasks) : NodeTasks :=
  { s with loops := s.loops ++ [.created], control := .idle }

def controlStep (s : NodeTasks) : NodeTasks :=
  match s.control with
  | .idle => s
  | .starting dir => { s with direction := dir, control := .enabling }
  -- the packets and the callback follow; the direction decides about the task
  | .enabling =>
    { s with enabled := true, control := if s.direction = .send then .creating else .idle }
  | .creating => s.createLoop
  | .waiting => if s.sendActive then s else { s with control := .idle }

def loopStep (i : ℕ) (s : NodeTasks) : NodeTasks × List TaskEffect :=
  match s.loops[i]? with
  | none => (s, [])
  | some .created => ({ s with sendActive := true, loops := s.loops.set i .testing }, [])
  | some .testing =>
    let next := if s.direction = .send then LoopStep.sending else .ending
    ({ s with loops := s.loops.set i next }, [])
  -- `sendDMXDataArtnet` sends nothing at a node that is not enabled
  | some .sending =>
    ({ s with loops := s.loops.set i .testing }, if s.enabled then [.artDmx] else [])
  | some .ending => ({ s with sendActive := false, loops := s.loops.eraseIdx i }, [])

/-- The control task makes its calls one after the other. -/
def step (s : NodeTasks) : TaskEvent → NodeTasks × List TaskEffect
  | .startDMXArtnet dir =>
    (if s.control = .idle then { s with enabled := false, control := .starting dir } else s, [])
  | .changeDirectionArtnet dir =>
    (if s.control ≠ .idle ∨ dir = s.direction then s
      else { s with direction := dir, control := if dir = .send then .creating else .waiting }, [])
  | .control => (s.controlStep, [])
  | .loop i => s.loopStep i

end NodeTasks

end BlizzardBridge
