import EntryDoor.Main
import EntryDoor.Rehearsal
import EntryDoor.Proofs.Config.Hours
import EntryDoor.Proofs.Schedule.Promise
import EntryDoor.Proofs.Schedule.Walk
import EntryDoor.Proofs.Scheduler.Position
import EntryDoor.Proofs.Scheduler.Reset
import EntryDoor.Proofs.Scheduler.Wake
import EntryDoor.Proofs.Scheduler.Start
import EntryDoor.Proofs.Scheduler.Transparent
import EntryDoor.Proofs.Calendar.Civil
import EntryDoor.Proofs.Calendar.ReadBack
import EntryDoor.Proofs.Schedule.Additions
import EntryDoor.Proofs.Schedule.Seconds
import EntryDoor.Proofs.Schedule.Sight
import EntryDoor.Proofs.Hours.ReadBack
import EntryDoor.Proofs.Hours.Spelling
import EntryDoor.Proofs.Exchange
import EntryDoor.Proofs.Daemon.Reload
import EntryDoor.Proofs.Hours.Keys
import EntryDoor.Proofs.Calendar.Local
import EntryDoor.Proofs.Calendar.Gap
import EntryDoor.Proofs.Hours.Ordered
import EntryDoor.Proofs.Scheduler.Pace
