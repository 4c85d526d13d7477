import Mathlib.Data.List.Forall2
import WriteBehind.Log.Line
import WriteBehind.Proofs.Json.Value.Writing

namespace WriteBehind.Log

open Json (Value)
open Json.Grammar (Denotes)
open Text (IsLine)

@[ext]
structure Entry where
  time    : Int
  level   : Level
  source  : List Char
  message : List Char

namespace Entry

def line (e : Entry) : List Char := jsonLine e.time e.level e.source e.message

def members (e : Entry) : List (List Char × Value) :=
  [("level".toList, .text e.level.name.toList), ("msg".toList, .text e.message),
    ("target".toList, .text e.source), ("ts".toList, .integer e.time)]

end Entry

def log (es : List Entry) : List UInt8 := Text.Utf8.encode (es.flatMap (·.line ++ ['\n']))

-- What a text tells of an entry. It stays on its line, and it denotes the object with the four members and
-- nothing else, as which it is read.
structure Tells (line : List Char) (e : Entry) : Prop where
  isLine  : ∀ c ∈ line, ' ' ≤ c
  denotes : ∀ v, Denotes .value line v ↔ v = .object e.members
  reads   : Value.read line = .ok (.object e.members)

variable {e e' : Entry} {line : List Char}

theorem Level.name_injective : Function.Injective Level.name := by
  intro l l' h
  cases l <;> cases l' <;> first | rfl | exact absurd h (by decide)

theorem Entry.members_injective : Function.Injective Entry.members := by
  intro e e' h
  simp only [members, List.cons.injEq, Prod.mk.injEq, Value.text.injEq, Value.integer.injEq,
    true_and, and_true] at h
  obtain ⟨hl, hm, hs, ht⟩ := h
  exact Entry.ext ht (Level.name_injective (String.toList_inj.mp hl)) hs hm

theorem Tells.unique (h : Tells line e) (h' : Tells line e') : e = e' := by
  have hm := Except.ok.inj (h.reads.symm.trans h'.reads)
  exact Entry.members_injective (Value.object.inj hm)

theorem tells_line (e : Entry) : Tells e.line e where
  isLine    := Value.isLine_write _
  denotes _ := Value.denotes_write_iff
  reads     := Value.read_write _

theorem mapM_read_log (es : List Entry) :
    (Text.Lines.pieces (log es)).mapM Text.Lines.read = .ok (es.map Entry.line) := by
  have hl : ∀ s ∈ es.map Entry.line, IsLine s := by
    rw [List.forall_mem_map]
    exact fun e _ => (tells_line e).isLine
  have hm := Text.Lines.mapM_read_lines hl
  rwa [List.flatMap_map] at hm

-- A line tells its entry, so different entries have different lines, and the lines of a log tell its entries
-- one by one.
theorem lines_tell_entries :
    (∀ time level source message,
      Tells (jsonLine time level source message) ⟨time, level, source, message⟩) ∧
    (∀ e e' : Entry, e.line = e'.line ↔ e = e') ∧
    ∀ es, ∃ lines, (Text.Lines.pieces (log es)).mapM Text.Lines.read = .ok lines ∧
      lines.Forall₂ Tells es := by
  refine ⟨fun time level source message => tells_line ⟨time, level, source, message⟩, fun e e' => ?_,
    fun es => ⟨_, mapM_read_log es, ?_⟩⟩
  case refine_1 => exact ⟨fun h => (tells_line e).unique (h ▸ tells_line e'), congrArg Entry.line⟩
  case refine_2 => exact List.forall₂_map_left_iff.mpr (List.forall₂_same.mpr fun e _ => tells_line e)

example : jsonLine (-1) .error ['a', '\x00'] "\"\x7d\n\x7b\"ts\":0\x7f\\".toList =
    ("\x7b\"level\":\"ERROR\",\"msg\":\"\\\"\x7d\\n\x7b\\\"ts\\\":0\x7f\\\\\"," ++
      "\"target\":\"a\\u0000\",\"ts\":-1\x7d").toList := by
  decide +kernel

end WriteBehind.Log
