import WriteBehind.Proofs.Record.Members
import WriteBehind.Proofs.Record.Shown
import WriteBehind.Proofs.Text.Blank
import WriteBehind.Proofs.Time.Relaxed
import WriteBehind.Record.Line

namespace WriteBehind.Record

open Json (blanks_nil)
open Json.Quoted (inside_write)
open Text (trim)

variable {r : Record}

def valueText (r : Record) : Field → List Char
  | .id     => Nat.toDigits 10 r.id.toNat
  | .user   => Nat.toDigits 10 r.user.toNat
  | .kind   => Nat.toDigits 10 r.kind.toNat
  | .start  => Json.Quoted.write r.start.text
  | .finish => Json.Quoted.write r.finish.text
  | .level  => Nat.toDigits 10 r.level.toNat

theorem isNatural_toDigits {n : UInt64} : IsNatural (Nat.toDigits 10 n.toNat) n :=
  ⟨Json.whole_toDigits, Nat.ofDigitChars_ten_toDigits⟩

theorem isTimestamp_write {t : Time.Instant} : IsTimestamp (Json.Quoted.write t.text) t.shown :=
  ⟨_, _, rfl, inside_write, Time.Relaxed.read_text t⟩

theorem hasField_valueText (r : Record) (f : Field) : r.shown.HasField (r.valueText f) f := by
  cases f with
  | id     => exact isNatural_toDigits
  | user   => exact isNatural_toDigits
  | kind   => exact isNatural_toDigits
  | start  => exact isTimestamp_write
  | finish => exact isTimestamp_write
  | level  => exact isNatural_toDigits

def member (r : Record) (f : Field) : Member where
  name  := f.name.toList.flatMap Json.Quoted.writeChar
  value := r.valueText f

theorem isSpaced_member {f : Field} : (r.member f).IsSpaced where
  beforeName  := blanks_nil
  afterName   := blanks_nil
  beforeValue := blanks_nil
  afterValue  := blanks_nil

theorem turns_member {d : Draft} {f : Field} (hd : d.has f = false) :
    (r.member f).Turns d (d.put r.shown f) :=
  turns_own isSpaced_member inside_write (hasField_valueText r f) hd

theorem line_eq : r.line = objectText (Field.all.map r.member) := by
  simp only [line, toJson, Json.Value.write, Json.Value.writeMembers, Json.Value.writeInt,
    Json.Quoted.write, objectText, Field.all, List.map_cons, List.map_nil, List.intercalate_cons_cons,
    List.intercalate_singleton, Member.text, member, valueText, Field.name, List.append_assoc,
    List.cons_append, List.nil_append, List.append_nil]

theorem read_line (r : Record) : read r.line = .ok r.shown := by
  rw [line_eq]
  refine read_objectText ?_ (rfl : (Field.all.foldl (Draft.put · r.shown ·) {}).record = .ok r.shown)
  exact .cons isSpaced_member (turns_member rfl) (.cons isSpaced_member (turns_member rfl)
    (.cons isSpaced_member (turns_member rfl) (.cons isSpaced_member (turns_member rfl)
    (.cons isSpaced_member (turns_member rfl) (.cons isSpaced_member (turns_member rfl) (.nil _))))))

theorem trim_line (r : Record) : trim r.line = r.line := by
  rw [line_eq]
  exact Text.trim_of_ends rfl rfl

theorem ofLine_blanks_line (r : Record) {a b : List Char} (ha : ∀ c ∈ a, Text.isBlank c = true)
    (hb : ∀ c ∈ b, Text.isBlank c = true) : ofLine (a ++ r.line ++ b) = .ok (some r.shown) := by
  have ht : trim (a ++ r.line ++ b) = r.line := (Text.trim_append ha hb).trans (trim_line r)
  have hv : isVoid (a ++ r.line ++ b) = false := by
    rw [isVoid, ht, line_eq]
    rfl
  rw [ofLine, hv, ht, read_line]
  rfl

-- What is written for a record is read as what a clock shows of it, whatever blanks stand around it. This is
-- the record itself just if a clock can show it.
theorem ofLine_line (r : Record) {a b : List Char} (ha : ∀ c ∈ a, Text.isBlank c = true)
    (hb : ∀ c ∈ b, Text.isBlank c = true) :
    ofLine (a ++ r.line ++ b) = .ok (some r.shown) ∧
    (ofLine (a ++ r.line ++ b) = .ok (some r) ↔ r.IsOnClock) := by
  have h := ofLine_blanks_line r ha hb
  refine ⟨h, ?_⟩
  rw [h, ← shown_eq_self, Except.ok.injEq, Option.some.injEq]

-- The largest and the smallest number, the first second of the time line and a leap second.
def outermost : Record where
  id     := 0xFFFFFFFFFFFFFFFF
  user   := 0
  kind   := 1
  start  := ⟨Time.firstSecond, 1, by decide, by decide, by decide⟩
  finish := ⟨1483228799, 1500000000, by decide, by decide, by decide⟩
  level  := 0x7FFFFFFFFFFFFFFF

example : outermost.start.text = "-262143-01-01T00:00:00.000000001Z".toList ∧
    outermost.finish.text = "2016-12-31T23:59:60.500Z".toList := by
  decide +kernel

theorem ofLine_line_of_outermost :
    ofLine (['\u3000', '\t'] ++ outermost.line ++ [' ', '\u0085']) = .ok (some outermost) :=
  (ofLine_line outermost (by simp [Text.isBlank]) (by simp [Text.isBlank])).right.mpr
    (by decide +kernel)

theorem not_ofLine_line_of_overlong :
    overlong.start.text = "2020-01-01T00:00:31Z".toList ∧ ofLine overlong.line ≠ .ok (some overlong) ∧
      ofLine overlong.line =
        .ok (some { overlong with start := ⟨1577836831, 0, by decide, by decide, by decide⟩ }) := by
  have hl : [] ++ overlong.line ++ [] = overlong.line := List.append_nil _
  have h := ofLine_blanks_line overlong (List.forall_mem_nil _) (List.forall_mem_nil _)
  rw [hl] at h
  refine ⟨by decide +kernel, fun he => ?_, h.trans ?_⟩
  · have hs : overlong.shown = overlong := Option.some.inj (Except.ok.inj (h.symm.trans he))
    exact absurd (shown_eq_self.mp hs) (by decide)
  · exact congrArg (Except.ok ∘ some) (by decide +kernel)

end WriteBehind.Record
