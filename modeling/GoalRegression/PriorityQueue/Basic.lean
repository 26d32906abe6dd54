/-
A queue that serves the smallest priority first. Priorities are cut to a fixed number of decimal digits;
items of one cut priority share a bucket and leave it in the order in which they came.
-/
import GoalRegression.Binary.Arithmetic
import GoalRegression.Error
import GoalRegression.SortedMap.Basic

namespace GoalRegression

structure PriorityQueue (α : Type u) where
  /-- The items that wait, oldest first, under their cut priority. -/
  buckets : SortedMap Int (List α)
  /-- What a priority is multiplied by before it is cut to an integer. -/
  factor : Binary64
  size : Nat

namespace PriorityQueue

/-- How many decimal digits of a priority count, unless told otherwise. -/
def defaultPrecision : UInt32 := 3

/-- The empty queue that keeps `precision` decimal digits. The precision is read as a signed number, so
the upper half of its range asks for coarser steps than one. -/
def withPrecision (precision : UInt32) : PriorityQueue α where
  buckets := .empty
  factor := (Binary.ofInt 10).powInt precision.toInt32.toInt
  size := 0

def empty : PriorityQueue α := withPrecision defaultPrecision

instance : Inhabited (PriorityQueue α) := ⟨empty⟩

/-- The bucket of a priority: the integer part of its multiple, within 64 bits. -/
def key (q : PriorityQueue α) (priority : Binary32) : Int :=
  (priority.convert * q.factor).truncateWithin Int64.minValue.toInt Int64.maxValue.toInt

def enqueue (q : PriorityQueue α) (priority : Binary32) (item : α) : PriorityQueue α :=
  { q with
    buckets := q.buckets.update (q.key priority) fun waiting => waiting.getD [] ++ [item]
    size := q.size + 1 }

/-- The oldest item of the lowest bucket, and the queue without it. -/
def pop? (q : PriorityQueue α) : Option (α × PriorityQueue α) :=
  match q.buckets.entries with
  | [] => none
  | (_, []) :: _ => none
  | (_, [item]) :: _ => some (item, { q with buckets := q.buckets.eraseFirst, size := q.size - 1 })
  | (key, item :: rest) :: _ =>
    some (item, { q with buckets := q.buckets.insert key rest, size := q.size - 1 })

/-- Like `pop?`, with an error where nothing waits. -/
def dequeue (q : PriorityQueue α) : Except PlanningError (α × PriorityQueue α) :=
  match q.pop? with
  | some r => .ok r
  | none => .error .emptyQueue

def isEmpty (q : PriorityQueue α) : Bool := q.size == 0

def toList (q : PriorityQueue α) : List α := q.buckets.entries.flatMap (·.2)

end PriorityQueue

end GoalRegression
