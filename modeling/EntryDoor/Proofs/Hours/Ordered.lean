import EntryDoor.Calendar.ZoneTable
import EntryDoor.Proofs.Calendar.Gap
import EntryDoor.Proofs.Schedule.Placed

namespace EntryDoor

variable {z : Zone} {r : DayTimeRange} {h : OpeningHour} {d : Date}

theorem DayTimeRange.on_start_le_stop_iff : (r.on d z).start ≤ (r.on d z).stop ↔
    z.resolve (r.start.wallTime d) ≤ z.resolve (r.stop.wallTime d) :=
  Timestamp.ofSeconds_le

theorem OpeningHour.on_start_le_stop_iff : (h.on d z).start ≤ (h.on d z).stop ↔
    (z.resolve (h.range.start.wallTime d) - z.resolve (h.range.stop.wallTime d)) * 1000000000 ≤
      h.openBefore.nanos + h.closeAfter.nanos := by
  change (Timestamp.ofSeconds _).shift (-h.openBefore.nanos) ≤ (Timestamp.ofSeconds _).shift h.closeAfter.nanos ↔ _
  rw [Timestamp.shift_ofSeconds, Timestamp.shift_ofSeconds, Timestamp.ofNanos_le_ofNanos]
  omega

theorem DayTimeRange.wallTime_lt (r : DayTimeRange) (d : Date) : r.start.wallTime d < r.stop.wallTime d := by
  have := DayTime.lt_def.mp r.start_lt_stop
  grind [DayTime.wallTime]

namespace Zone

-- Local times stand for instants in their order, and opening hours end no sooner than they start, unless a gap turns
-- them around.
structure Ordered (z : Zone) : Prop where
  times : ∀ a b, a < b → (z.resolve a ≤ z.resolve b ↔ ¬z.Crosses a b)
  ranges : ∀ (r : DayTimeRange) (d : Date), (r.on d z).start ≤ (r.on d z).stop ↔
    ¬z.Crosses (r.start.wallTime d) (r.stop.wallTime d)
  hours : ∀ (h : OpeningHour) (d : Date), (h.on d z).start ≤ (h.on d z).stop ↔
    (z.Crosses (h.range.start.wallTime d) (h.range.stop.wallTime d) →
      3600 * 1000000000 ≤
        h.openBefore.nanos + h.closeAfter.nanos + (h.range.stop.minutes - h.range.start.minutes) * 60 * 1000000000)

theorem Gentle.resolve_le_iff (hz : z.Gentle 3600) {a b : Int} (h : a < b) :
    z.resolve a ≤ z.resolve b ↔ ¬z.Crosses a b := by
  rw [← Int.not_lt, hz.resolve_lt_resolve_iff, readAs_lt_readAs_iff h]

theorem Gentle.ordered (hz : z.Gentle 3600) : z.Ordered where
  times _ _ := hz.resolve_le_iff
  ranges r d := DayTimeRange.on_start_le_stop_iff.trans (hz.resolve_le_iff (r.wallTime_lt d))
  hours h d := by
    have hlt := h.range.wallTime_lt d
    rw [OpeningHour.on_start_le_stop_iff]
    by_cases hc : z.Crosses (h.range.start.wallTime d) (h.range.stop.wallTime d)
    case pos =>
      have := DayTime.lt_def.mp h.range.start_lt_stop
      have := hz.resolve_of_crosses hlt hc
      grind [DayTime.wallTime]
    case neg =>
      have := (hz.resolve_le_iff hlt).mpr hc
      exact iff_of_true (by omega) fun hc' => absurd hc' hc

example : ∀ z ∈ all, z.Gentle 3600 ∨ z ∈ [troll, apia] := by
  decide +kernel

-- From a time that the clocks skip in Vienna on the last Sunday of March up to one that they show.
def skippedStart : DayTimeRange :=
  ⟨⟨2, 35, by decide, by decide⟩, ⟨3, 25, by decide, by decide⟩, by decide⟩

def springSunday : Date :=
  .ofCivil 2024 3 31

-- The range is turned around by ten minutes, and an opening hour is not if its thresholds make up for them.
theorem ordered_vienna : vienna.Gentle 3600 ∧
    ¬(skippedStart.on springSunday vienna).start ≤ (skippedStart.on springSunday vienna).stop ∧
      let h : OpeningHour := ⟨skippedStart, .ofMinutes 5, .ofMinutes 5, false⟩
      (h.on springSunday vienna).start ≤ (h.on springSunday vienna).stop := by
  have hz : vienna.Gentle 3600 := by decide +kernel
  have ho := Gentle.ordered hz
  refine ⟨hz, fun hle => ?_, (ho.hours _ _).mpr fun _ => by decide⟩
  exact (ho.ranges _ _).mp hle (by decide +kernel)

-- A zone whose clocks are put back within an hour after they are put forward, and two minutes around that hour's end.
def hasty : Zone :=
  ⟨"", 0, [(10800, 3600), (14340, 0)]⟩

def hastyMinutes : DayTimeRange :=
  ⟨⟨3, 59, by decide, by decide⟩, ⟨4, 1, by decide, by decide⟩, by decide⟩

-- A gap turns a range around, and so does a change sooner than an hour after another one.
theorem not_ordered_gentle :
    (vienna.Gentle 3600 ∧ ¬(skippedStart.on springSunday vienna).start ≤ (skippedStart.on springSunday vienna).stop) ∧
      hasty.Gentle 3540 ∧ ¬hasty.Crosses (hastyMinutes.start.wallTime ⟨0⟩) (hastyMinutes.stop.wallTime ⟨0⟩) ∧
        ¬(hastyMinutes.on ⟨0⟩ hasty).start ≤ (hastyMinutes.on ⟨0⟩ hasty).stop := by
  decide +kernel

end Zone

end EntryDoor
