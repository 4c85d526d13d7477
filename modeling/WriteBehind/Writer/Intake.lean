import WriteBehind.Record

namespace WriteBehind.Writer

abbrev Ticket := Nat

structure Waiting where
  ticket : Ticket
  record : Record

-- A fixed number of places. Saves that find none wait in line, and a freed place belongs to the first in line.
structure Intake where
  capacity : Nat
  queue : List Record := []
  waiting : List Waiting := []
  isOpen : Bool := true

namespace Intake

variable (q : Intake)

def room : Nat := q.capacity - q.queue.length

def HasFree : Prop := q.waiting.length < q.room

instance : Decidable q.HasFree := by unfold HasFree; infer_instance

def index? (t : Ticket) : Option Nat := q.waiting.findIdx? (·.ticket = t)

def Granted (index : Nat) : Prop := index < q.room

instance (index : Nat) : Decidable (q.Granted index) := by unfold Granted; infer_instance

def push (r : Record) : Intake := { q with queue := q.queue ++ [r] }

def wait (w : Waiting) : Intake := { q with waiting := q.waiting ++ [w] }

def leave (index : Nat) : Intake := { q with waiting := q.waiting.eraseIdx index }

def shut : Intake := { q with queue := [], isOpen := false }

@[simp] theorem push_queue (r : Record) : (q.push r).queue = q.queue ++ [r] := rfl

@[simp] theorem push_waiting (r : Record) : (q.push r).waiting = q.waiting := rfl

@[simp] theorem push_isOpen (r : Record) : (q.push r).isOpen = q.isOpen := rfl

@[simp] theorem leave_queue (index : Nat) : (q.leave index).queue = q.queue := rfl

@[simp] theorem leave_waiting (index : Nat) :
    (q.leave index).waiting = q.waiting.eraseIdx index := rfl

@[simp] theorem leave_isOpen (index : Nat) : (q.leave index).isOpen = q.isOpen := rfl

@[simp] theorem shut_queue : q.shut.queue = [] := rfl

@[simp] theorem shut_waiting : q.shut.waiting = q.waiting := rfl

@[simp] theorem shut_isOpen : q.shut.isOpen = false := rfl

end Intake
end WriteBehind.Writer
