import EdgePlacement.Fault

/-!
# Services and the demands between them
-/

namespace EdgePlacement

structure Service (α : Type) where
  name : String
  storage : α
  compute : α
  cost : α
  latency : α
  uplink : α
  downlink : α
  deriving DecidableEq

structure Demand (α : Type) where
  source : String
  target : String
  bandwidth : α
  deriving DecidableEq

variable {α : Type}

def Service.requirements (s : Service α) : Resources α :=
  ⟨s.storage, s.compute, s.uplink, s.downlink⟩

variable [Quantity α]

def Service.checked (s : Service α) : Except (Fault α) (Service α) :=
  if s.requirements.isNegative then .error (.negativeRequirements s.name) else .ok s

def Demand.checked (d : Demand α) : Except (Fault α) (Demand α) :=
  if d.bandwidth < 0 then .error (.negativeBandwidth d.source d.target) else .ok d

end EdgePlacement
