import EdgePlacement.Network.Paths
import EdgePlacement.Record
import EdgePlacement.Relaxation.Solve

/-!
# Settings of a placement run
-/

namespace EdgePlacement

structure Settings (α : Type) where
  /-- None leaves the choice of a seed open. -/
  seed : Option Int
  backend : Backend
  tolerance : α
  weight : PathWeight
  resetUsage : Bool
  solverOutput : Bool
  timeLimit : Option α

structure SettingsRequest (α : Type) where
  seed : Option Int
  backend : RawValue
  tolerance : α
  weight : RawValue
  resetUsage : Bool
  solverOutput : Bool
  timeLimit : Option α

namespace SettingsRequest

variable {α : Type} [Quantity α]

def defaults : SettingsRequest α where
  seed := some 42
  backend := .text "highs"
  tolerance := 1e-6
  weight := .text "latency"
  resetUsage := true
  solverOutput := false
  timeLimit := none

def backend? (request : SettingsRequest α) : Option Backend :=
  match request.backend with
  | .text name => Backend.ofName? name
  | _ => none

def weight? (request : SettingsRequest α) : Option PathWeight :=
  match request.weight with
  | .text name => PathWeight.ofName? name
  | _ => none

/-- The back end is looked at first, then the path weight, then the tolerance. -/
def settle (request : SettingsRequest α) : Except (Fault α) (Settings α) :=
  match request.backend?, request.weight? with
  | none, _ => .error (.unknownBackend request.backend.quoted)
  | _, none => .error (.unknownWeightSetting request.weight.quoted)
  | some backend, some weight =>
    if request.tolerance < 0 then .error .negativeTolerance
    else
      .ok {
        seed := request.seed
        backend := backend
        tolerance := request.tolerance
        weight := weight
        resetUsage := request.resetUsage
        solverOutput := request.solverOutput
        timeLimit := request.timeLimit }

end SettingsRequest
end EdgePlacement
