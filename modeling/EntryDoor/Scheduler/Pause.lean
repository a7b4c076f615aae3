import EntryDoor.Policy
import EntryDoor.Scheduler.Moment

namespace EntryDoor.Policy

def minPause : Duration := .ofMillis 1

-- Intervals include their end, so the desired state only flips once the end has passed.
def pause (p : Policy) (validUntil : Option Timestamp) (clock : Timestamp) : Duration :=
  let untilEnd := match validUntil with
    | some t => t.since clock
    | none => p.fallbackHorizon
  max (min untilEnd p.resendInterval) minPause

-- If the monotonic clock cannot show the reading, there is no sleep.
def wakeAt (p : Policy) (validUntil : Option Timestamp) (m : Moment) : Instant :=
  (Instant.add? m.instant (p.pause validUntil m.clock)).getD m.instant

theorem minPause_le_pause (p : Policy) (validUntil : Option Timestamp) (clock : Timestamp) :
    minPause ≤ p.pause validUntil clock := by
  simp only [pause, Duration.le_def, Duration.nanos_max]
  omega

theorem pause_le (p : Policy) (validUntil : Option Timestamp) (clock : Timestamp) :
    p.pause validUntil clock ≤ max p.resendInterval minPause := by
  simp only [pause, Duration.le_def, Duration.nanos_max, Duration.nanos_min]
  omega

end EntryDoor.Policy
