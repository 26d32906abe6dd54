/-
Sinks for bytes that take a limited number of them, in portions of any size, and then either refuse or
take nothing. Writing a piece repeats until the sink has all of it or fails; writing pieces stops at the
first failure.
-/
import GoalRegression.Error

namespace GoalRegression

structure Sink where
  received : List UInt8
  /-- How many more bytes the sink takes. -/
  room : Nat
  /-- How many bytes the sink takes at once when it has received this many; it takes one at least. -/
  portion : Nat → Nat
  /-- What the sink answers when it is full. -/
  fault : SinkFault

namespace Sink

/-- How many of the bytes offered the sink takes at once. -/
def accepts (s : Sink) (offered : Nat) : Nat :=
  Min.min offered (Min.min s.room (Max.max 1 (s.portion s.received.length)))

def take (s : Sink) (bytes : List UInt8) (count : Nat) : Sink :=
  { s with received := s.received ++ bytes.take count, room := s.room - count }

/-- Offers bytes until all are taken or the sink is full, at most `turns` times. -/
def writeWithin : Nat → Sink → List UInt8 → Sink × Except SinkFault Unit
  | _, s, [] => (s, .ok ())
  | 0, s, _ => (s, .error s.fault)
  | turns + 1, s, bytes =>
    let count := s.accepts bytes.length
    if count = 0 then (s, .error s.fault) else writeWithin turns (s.take bytes count) (bytes.drop count)

/-- Writes a piece. Every turn takes a byte at least. -/
def write (s : Sink) (bytes : List UInt8) : Sink × Except SinkFault Unit :=
  writeWithin bytes.length s bytes

/-- Writes pieces one after the other, up to the first failure. -/
def writeAll : Sink → List (List UInt8) → Sink × Except SinkFault Unit
  | s, [] => (s, .ok ())
  | s, piece :: rest =>
    match s.write piece with
    | (s, .ok ()) => writeAll s rest
    | (s, .error fault) => (s, .error fault)

end Sink

end GoalRegression
