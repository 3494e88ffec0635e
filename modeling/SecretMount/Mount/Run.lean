import SecretMount.Mount.Fetch
import SecretMount.Mount.Response
import SecretMount.Mount.Schedule
import SecretMount.RoutingTable

/-!
# Runs of mount requests

A run is a list of turns: an entry starts, its access is answered or takes too long, the request is
cancelled. Each turn changes the progress of the run.

* `Mount.Limits` : how many entries may have slots, and how long each access may take;
* `Mount.Turn`, `Mount.Progress`, `Progress.step`, `Progress.perform` : what comes of turns in any
  order. A turn that is not possible changes nothing;
* `Progress.hasSlot` : an entry may start when fewer entries than there are slots lie between it and
  the first one that has not finished;
* `Mount.timedTurns` : the turns of a request in the order of a clock;
* `Mount.run` : the response to a request, or its failure, with the time it takes, the accesses it
  costs and what it logs.
-/

namespace SecretMount.Mount

open Backend

/-- What an entry comes to when it succeeds. -/
structure Resolved where
  version : ObjectVersion
  file : File
deriving DecidableEq, Repr

abbrev Outcome := Except Cause Resolved

/-! ## One entry -/

/-- What is accessed for an entry, and where. -/
def route (table : RoutingTable Handle) (e : Entry) : Except Cause (VersionName × Handle) := do
  if e.outputPath.isEmpty then .error .noDestination
  else
    let name ← (VersionName.parse e.resourceName).mapError .name
    let handle ← (table.route name).mapError .unrouted
    return (name, handle)

/-- What an answer comes to for an entry. -/
def resolve (e : Entry) (permissions : Mode) (answer : Answer) : Outcome := do
  let fetched ← Fetch.result answer
  let contents ← (Payload.transform fetched.data e.encoding e.extraction).mapError .payload
  return ⟨⟨e.resourceName, fetched.version⟩, ⟨e.outputPath, e.effectiveMode permissions, contents⟩⟩

/-- What is logged when an entry succeeds. -/
def resolvedEvents : Outcome → List Log.Event
  | .error _ => []
  | .ok r =>
    [.free .debug "Resolved secret"
      [("resource_name", r.version.id), ("version", r.version.version), ("path", r.file.path),
        ("bytes", toString r.file.contents.length)]]

/-! ## Limits -/

structure Limits where
  /-- How many entries may have slots. -/
  maxConcurrent : Nat
  /-- How long an access may take. -/
  timeout : Option Nat
deriving DecidableEq, Repr

namespace Limits

def standard : Limits := ⟨8, none⟩

/-- There is always one slot. -/
def slots (l : Limits) : Nat := max 1 l.maxConcurrent

end Limits

/-! ## Turns -/

inductive Task where
  | waiting
  | fetching (name : VersionName)
  | finished (outcome : Outcome)

namespace Task

def isFinished : Task → Bool
  | finished _ => true
  | _ => false

/-- What a task comes to: one that never finishes counts as cancelled. -/
def outcome : Task → Outcome
  | finished o => o
  | _ => .error .cancelled

/-- The task when the request is cancelled. -/
def cancel : Task → Task
  | fetching _ => finished (.error .cancelled)
  | t => t

end Task

inductive Turn where
  | start (index : Nat)
  | answer (index : Nat) (reply : Reply)
  | expire (index : Nat)
  | cancel

structure Progress where
  /-- One task for each entry. -/
  tasks : List Task
  cancelled : Bool
  /-- The handles that were accessed, by their numbers, and the names. -/
  accesses : List (Nat × String)
  events : List Log.Event

namespace Progress

variable (table : RoutingTable Handle) (request : Request) (limits : Limits)

/-- Nothing has started. -/
def initial : Progress := ⟨request.entries.map fun _ => .waiting, false, [], []⟩

def outcomes (p : Progress) : List Outcome := p.tasks.map Task.outcome

/-- The number of entries whose slots are free again: all before the first that has not finished. -/
def taken (p : Progress) : Nat := (p.tasks.takeWhile Task.isFinished).length

/-- Whether an entry may start. -/
def hasSlot (p : Progress) (index : Nat) : Bool := index < p.taken + limits.slots

def setTask (p : Progress) (index : Nat) (t : Task) : Progress :=
  { p with tasks := p.tasks.set index t }

/-- An entry starts. Nothing is accessed for it if its route fails or the request is cancelled. -/
def start (p : Progress) (index : Nat) (e : Entry) : Progress :=
  match route table e with
  | .error cause => p.setTask index (.finished (.error cause))
  | .ok (name, handle) =>
    if p.cancelled then p.setTask index (.finished (.error .cancelled))
    else
      { p.setTask index (.fetching name) with
        accesses := p.accesses ++ [(handle.id, name.text)]
        events := p.events ++ [Fetch.opening name handle.endpoint] }

/-- The access for an entry is answered. -/
def answer (p : Progress) (index : Nat) (e : Entry) (name : VersionName) (reply : Reply) :
    Progress :=
  let outcome := resolve e request.permissions reply.answer
  { p.setTask index (.finished outcome) with
    events :=
      p.events ++ reply.events ++ Fetch.closing name reply.answer ++ resolvedEvents outcome }

def step (p : Progress) (turn : Turn) : Progress :=
  match turn with
  | .start index =>
    match request.entries[index]?, p.tasks[index]? with
    | some e, some .waiting => if p.hasSlot limits index then start table p index e else p
    | _, _ => p
  | .answer index reply =>
    match request.entries[index]?, p.tasks[index]? with
    | some e, some (.fetching name) => answer request p index e name reply
    | _, _ => p
  | .expire index =>
    match limits.timeout, p.tasks[index]? with
    | some limit, some (.fetching _) => p.setTask index (.finished (.error (.timeout limit)))
    | _, _ => p
  | .cancel => { p with tasks := p.tasks.map Task.cancel, cancelled := true }

/-- What comes of `turns`, one after the other. -/
def perform (turns : List Turn) : Progress :=
  turns.foldl (step table request limits) (initial request)

end Progress

/-! ## The clock -/

namespace Limits

/-- The time until an access that takes `latency` is answered or expires. -/
def duration (l : Limits) (latency : Nat) : Nat := (l.timeout.map (min latency)).getD latency

/-- Whether an access is answered in time: it may take just as long as it may. -/
def allows (l : Limits) (latency : Nat) : Bool := l.timeout.all (latency ≤ ·)

/-- What ends the access to `name` of the entry at `index`. -/
def lastTurn (l : Limits) (index : Nat) (name : VersionName) (h : Handle) : Turn :=
  if l.allows (h.latency name.text) then .answer index (h.reply name.text) else .expire index

end Limits

variable (table : RoutingTable Handle) (request : Request) (limits : Limits)

/-- When an entry finishes that starts at `start`, if the request is cancelled at `cancel`. -/
def finishTime (cancel : Option Nat) (e : Entry) (start : Nat) : Nat :=
  match route table e with
  | .error _ => start
  | .ok (name, handle) =>
    let finish := start + limits.duration (handle.latency name.text)
    match cancel with
    | some c => if c ≤ start then start else min c finish
    | none => finish

/-- The times of the entries. -/
def slots (cancel : Option Nat) : List Schedule.Slot :=
  Schedule.slots limits.slots (request.entries.map (finishTime table limits cancel))

/-- The turns of an entry that starts at `start`, with their times. -/
def entryTurns (index : Nat) (e : Entry) (start : Nat) : List (Nat × Turn) :=
  (start, .start index) ::
    match route table e with
    | .error _ => []
    | .ok (name, handle) =>
      [(start + limits.duration (handle.latency name.text), limits.lastTurn index name handle)]

/-- `t` behind the turns up to its time. -/
def insertTurn (t : Nat × Turn) : List (Nat × Turn) → List (Nat × Turn)
  | [] => [t]
  | u :: r => if t.1 < u.1 then t :: u :: r else u :: insertTurn t r

/-- All turns in the order of their times. At one time the cancellation comes first, and then the
entries come in their order. -/
def timedTurns (cancel : Option Nat) : List (Nat × Turn) :=
  let entries := request.entries.zipIdx.zip (slots table request limits cancel)
  let turns := entries.flatMap fun ((e, index), slot) => entryTurns table limits index e slot.start
  ((cancel.map fun c => (c, Turn.cancel)).toList ++ turns).foldl (fun l t => insertTurn t l) []

/-! ## Runs -/

/-- The failure of the entry at `index`, if it has failed. -/
def failure? (index : Nat) (e : Entry) : Outcome → Option EntryFailure
  | .ok _ => none
  | .error cause => some ⟨index, e.resourceName, cause⟩

/-- The failures among `outcomes`, which are those of `entries`. -/
def failures (entries : List Entry) (outcomes : List Outcome) : List EntryFailure :=
  (entries.zip outcomes).zipIdx.filterMap fun ((e, outcome), index) => failure? index e outcome

/-- The response that successes make up. -/
def respond (outcomes : List Outcome) : Response :=
  let resolved := outcomes.filterMap Except.toOption
  ⟨resolved.map Resolved.version, resolved.map Resolved.file⟩

/-- A response when all entries succeed, else one failure for all that do not. -/
def result (entries : List Entry) (outcomes : List Outcome) : Except Failure Response :=
  match Failure.ofList? (failures entries outcomes) entries.length with
  | some failure => .error failure
  | none => .ok (respond outcomes)

/-- What is logged about a failed entry. -/
def failureEvent (f : EntryFailure) : Log.Event :=
  .free .warn "Failed to resolve secret"
    [("index", toString f.index), ("resource_name", f.resourceName), ("kind", f.cause.kind),
      ("error", f.cause.message)]

/-- What is logged at the end. -/
def resultEvent (total : Nat) : Except Failure Response → Log.Event
  | .error f =>
    .free .error "Mount failed" [("failed", toString f.size), ("total", toString f.total)]
  | .ok _ => .free .info "Mount resolved" [("total", toString total)]

/-- The span of all that a request logs. -/
def span : Log.Span :=
  ⟨"mount", [("pod_namespace", request.pod.namespaceName), ("pod_name", request.pod.name),
    ("pod_uid", request.pod.uid), ("secrets", toString request.entries.length)]⟩

structure Report where
  result : Except Failure Response
  elapsed : Nat
  accesses : List (Nat × String)
  events : List Log.Event

/-- What has come of a request when `progress` is made. -/
def report (progress : Progress) (elapsed : Nat) : Report :=
  let outcomes := progress.outcomes
  let result := result request.entries outcomes
  let events :=
    [.free .info "Resolving mount" [("target_path", request.targetPath)]] ++ progress.events ++
      (failures request.entries outcomes).map failureEvent ++
      [resultEvent request.entries.length result]
  ⟨result, elapsed, progress.accesses, events.map (Log.Event.within (span request))⟩

/-- The progress of a request when the clock has made all its turns. -/
def clocked (cancel : Option Nat) : Progress :=
  Progress.perform table request limits ((timedTurns table request limits cancel).map Prod.snd)

/-- Runs a request, which is cancelled at the time `cancel` if there is one. -/
def run (cancel : Option Nat) : Report :=
  report request (clocked table request limits cancel)
    (Schedule.elapsed (slots table request limits cancel))

end SecretMount.Mount
