import EntryDoor.Error
import EntryDoor.Scheduler.Moment

namespace EntryDoor

-- One call at a time is begun, and later answered or abandoned.
class Actuator (δ : Type) where
  call : δ → Command → Moment → δ
  answer? : δ → Moment → Option (Except HardwareFault Unit × δ)
  abandon : δ → δ
  due? : δ → Option Instant

end EntryDoor
