/-!
# Schedules

A request has slots for a number of entries. An entry takes a slot when it starts, and its slot is
free again when it has finished and all entries before it have: an entry that finishes early keeps
its slot until its turn comes.

* `Schedule.Pool` : the time, and the times at which the entries in the slots finish;
* `Schedule.Slot` : when an entry starts and when it finishes;
* `Schedule.slots` : these times for all entries of a request;
* `Schedule.elapsed` : the time that the request takes.
-/

namespace SecretMount.Mount.Schedule

/-- When an entry finishes, by the time at which it starts. -/
abbrev Job := Nat → Nat

structure Pool where
  now : Nat
  /-- The finish times of the entries in the slots, in the order of the entries. -/
  window : List Nat

namespace Pool

def empty : Pool := ⟨0, []⟩

/-- Waits until one of `count` slots is free. -/
def wait (count : Nat) (p : Pool) : Pool :=
  if p.window.length < count then p
  else match p.window with
    | [] => p
    | finish :: r => ⟨max p.now finish, r⟩

/-- Gives a slot to a job. -/
def start (job : Job) (p : Pool) : Pool := { p with window := p.window ++ [job p.now] }

end Pool

structure Slot where
  start : Nat
  finish : Nat
deriving DecidableEq, Repr

/-- The times of `jobs`, which start from `p` on. -/
def slotsFrom (count : Nat) (p : Pool) : List Job → List Slot
  | [] => []
  | job :: r =>
    let p := p.wait count
    ⟨p.now, job p.now⟩ :: slotsFrom count (p.start job) r

/-- The times of `jobs` when `count` slots are there. -/
def slots (count : Nat) (jobs : List Job) : List Slot := slotsFrom count .empty jobs

/-- The time at which all have finished. -/
def elapsed (slots : List Slot) : Nat := (slots.map Slot.finish).foldl max 0

end SecretMount.Mount.Schedule
