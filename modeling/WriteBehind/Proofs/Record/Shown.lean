import WriteBehind.Proofs.Time.Text
import WriteBehind.Record

namespace WriteBehind.Record

variable {r : Record}

structure IsOnClock (r : Record) : Prop where
  start  : r.start.IsOnClock
  finish : r.finish.IsOnClock

theorem isOnClock_iff : r.IsOnClock ↔ r.start.IsOnClock ∧ r.finish.IsOnClock where
  mp  := fun ⟨start, finish⟩ => ⟨start, finish⟩
  mpr := fun ⟨start, finish⟩ => ⟨start, finish⟩

instance : Decidable r.IsOnClock := decidable_of_iff' _ isOnClock_iff

-- What the texts of a record tell of it. A second that lasts longer within its minute is told as the next
-- one, so an instant in it is lost.
def shown (r : Record) : Record := { r with start := r.start.shown, finish := r.finish.shown }

theorem isOnClock_shown (r : Record) : r.shown.IsOnClock :=
  ⟨r.start.isOnClock_shown, r.finish.isOnClock_shown⟩

theorem shown_of_isOnClock (h : r.IsOnClock) : r.shown = r := by
  rw [shown, Time.Instant.shown_of_isOnClock h.start, Time.Instant.shown_of_isOnClock h.finish]

theorem shown_eq_self : r.shown = r ↔ r.IsOnClock :=
  ⟨fun h => h ▸ r.isOnClock_shown, shown_of_isOnClock⟩

-- A second that lasts two seconds within its minute, at the end of the first.
def overlong : Record where
  id     := 1
  user   := 2
  kind   := 3
  start  := (Time.Instant.mk? 1577836830 1000000000).getD .epoch
  finish := (Time.Instant.mk? 1577836890 0).getD .epoch
  level  := 4

end WriteBehind.Record
