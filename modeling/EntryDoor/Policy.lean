import EntryDoor.Error

namespace EntryDoor

structure Policy where
  -- The desired state is sent again at least this often.
  resendInterval : Duration := .ofSeconds 60
  -- How long to sleep when the schedule has no known end.
  fallbackHorizon : Duration := .ofSeconds 300
  maxTriesLocked : Nat := 60
  maxTriesUnlocked : Nat := 20
  commandTimeout : Duration := .ofSeconds 1
  resetSettleDelay : Duration := .ofSeconds 2
  resetCommandTimeout : Duration := .ofSeconds 10
  -- How long a request may wait to be accepted.
  requestTimeout : Duration := .ofSeconds 5
deriving DecidableEq, Repr, Inhabited

namespace Policy

def maxTries (p : Policy) : DoorState → Nat
  | .locked => p.maxTriesLocked
  | .unlocked => p.maxTriesUnlocked

-- The first fault of a policy: it would never sleep, or unlock more stubbornly than lock.
def fault? (p : Policy) : Option PolicyFault :=
  if p.resendInterval = .zero then some .zeroResendInterval
  else if p.fallbackHorizon = .zero then some .zeroFallbackHorizon
  else if p.maxTriesLocked < p.maxTriesUnlocked then some .unlockedBudgetLarger
  else none

def validate (p : Policy) : Except ValidationError Unit :=
  match p.fault? with
  | some fault => .error (.invalidPolicy fault)
  | none => .ok ()

end Policy

end EntryDoor
