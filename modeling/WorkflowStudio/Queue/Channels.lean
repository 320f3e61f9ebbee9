import Mathlib.Data.Prod.Lex
import Mathlib.Order.Lattice
import WorkflowStudio.Queue.Job
import WorkflowStudio.Queue.PriorityQueue

/-! The channels of the job runner: a tree of queues with capacities, through which
the jobs flow down to the root channel, where they are handed out to be run. -/

set_option autoImplicit false

namespace WorkflowStudio.Queue

/-- Microseconds since the epoch. Zero stands for no moment at all, as in the source. -/
abbrev Time := Int

/-- The identity of a job object: two objects are different jobs even where they have
the same properties. -/
abbrev JobId := Nat

abbrev Name := List Char

/-- The names of a channel and of its parents, the root first. -/
abbrev Path := List Name

structure ChannelJob where
  dbName : String
  channel : Path
  uuid : String
  seq : Nat
  dateCreated : Time
  priority : Int
  eta : Option Time
  moment : eta ≠ some 0

theorem no_eta : (none : Option Time) ≠ some 0 := (Option.some_ne_none 0).symm

instance : Inhabited ChannelJob where
  default :=
    { dbName := "", channel := [], uuid := "", seq := 0, dateCreated := 0, priority := 0
      eta := none, moment := no_eta }

/-- The job objects. An eta is cleared in place, in every queue that holds the job. -/
abbrev Jobs := JobId → ChannelJob

namespace Jobs

def setNoEta (jobs : Jobs) (job : JobId) : Jobs := fun other =>
  if other = job then { jobs other with eta := none, moment := no_eta }
  else jobs other

def sortingKeyIgnoringEta (jobs : Jobs) (job : JobId) : Int ×ₗ Time ×ₗ Nat :=
  toLex ((jobs job).priority, toLex ((jobs job).dateCreated, (jobs job).seq))

/-- The key among the jobs with an eta. A job without one is never compared with them. -/
def sortingKey (jobs : Jobs) (job : JobId) : Time ×ₗ Int ×ₗ Time ×ₗ Nat :=
  toLex ((jobs job).eta.getD 0, jobs.sortingKeyIgnoringEta job)

end Jobs

/-!
## The queue of a channel
-/

structure ChannelQueue where
  queue : PriorityQueue JobId := .empty
  etaQueue : PriorityQueue JobId := .empty
  sequential : Bool := false

namespace ChannelQueue

def length (queue : ChannelQueue) : Nat :=
  queue.etaQueue.length + queue.queue.length

def contains (queue : ChannelQueue) (job : JobId) : Bool :=
  queue.etaQueue.contains job || queue.queue.contains job

def add (jobs : Jobs) (queue : ChannelQueue) (job : JobId) : ChannelQueue :=
  if (jobs job).eta.isSome then { queue with etaQueue := queue.etaQueue.add job }
  else { queue with queue := queue.queue.add job }

def remove (queue : ChannelQueue) (job : JobId) : ChannelQueue :=
  { queue with etaQueue := queue.etaQueue.remove job, queue := queue.queue.remove job }

/-- `self._eta_queue[0]`, where the queue is not empty. -/
def firstEta (jobs : Jobs) (queue : ChannelQueue) : Option JobId × ChannelQueue :=
  if queue.etaQueue.length = 0 then (none, queue)
  else
    let looked := queue.etaQueue.top jobs.sortingKey
    (looked.1, { queue with etaQueue := looked.2 })

/-- The first loop of `pop`: the jobs whose eta is past compete with the others. -/
def ripen (now : Time) : Nat → Jobs → ChannelQueue → Jobs × ChannelQueue
  | 0, jobs, queue => (jobs, queue)
  | rounds + 1, jobs, queue =>
      match queue.firstEta jobs with
      | (none, queue) => (jobs, queue)
      | (some first, queue) =>
          if (jobs first).eta.getD 0 ≤ now then
            match queue.etaQueue.pop jobs.sortingKey with
            | (none, etaQueue) => (jobs, { queue with etaQueue })
            | (some etaJob, etaQueue) =>
                let cleared := jobs.setNoEta etaJob
                ripen now rounds cleared
                  { queue with etaQueue, queue := queue.queue.add etaJob }
          else (jobs, queue)

/-- Whether a sequential queue waits for the eta of its first job with one. -/
def waits (jobs : Jobs) (queue : ChannelQueue) : Bool × ChannelQueue :=
  if queue.sequential && decide (queue.etaQueue.length ≠ 0) &&
      decide (queue.queue.length ≠ 0) then
    let etaLooked := queue.etaQueue.top jobs.sortingKey
    let looked := queue.queue.top jobs.sortingKeyIgnoringEta
    let queue := { queue with etaQueue := etaLooked.2, queue := looked.2 }
    match etaLooked.1, looked.1 with
    | some etaJob, some job =>
        (decide (jobs.sortingKeyIgnoringEta etaJob < jobs.sortingKeyIgnoringEta job), queue)
    | _, _ => (false, queue)
  else (false, queue)

def pop (now : Time) (jobs : Jobs) (queue : ChannelQueue) :
    Jobs × Option JobId × ChannelQueue :=
  let ripe := queue.ripen now (queue.etaQueue.length + 1) jobs
  let waited := ripe.2.waits ripe.1
  if waited.1 then (ripe.1, none, waited.2)
  else
    let taken := waited.2.queue.pop ripe.1.sortingKeyIgnoringEta
    (ripe.1, taken.1, { waited.2 with queue := taken.2 })

def getWakeupTime (jobs : Jobs) (wakeup : Time) (queue : ChannelQueue) : Time × ChannelQueue :=
  match queue.firstEta jobs with
  | (none, queue) => (wakeup, queue)
  | (some first, queue) =>
      if wakeup = 0 then ((jobs first).eta.getD 0, queue)
      else (min wakeup ((jobs first).eta.getD 0), queue)

end ChannelQueue

/-!
## One channel
-/

/-- A channel without its name, its parent and its children. A capacity of zero is
unlimited, as none is. -/
structure Channel where
  queue : ChannelQueue := {}
  running : Finset JobId := ∅
  failed : Finset JobId := ∅
  pauseUntil : Time := 0
  capacity : Option Int := none
  throttle : Int := 0

namespace Channel

def sequential (channel : Channel) : Bool := channel.queue.sequential

/-- What `remove` does before it goes on to the parent. -/
def drop (channel : Channel) (job : JobId) : Channel :=
  { channel with
    queue := channel.queue.remove job
    running := channel.running.erase job
    failed := channel.failed.erase job }

/-- Each of the three methods below returns at once where the channel has the job in
this state already, and does not go on to the parent then. -/
def setPending (jobs : Jobs) (job : JobId) (channel : Channel) : Option Channel :=
  if channel.queue.contains job then none
  else some
    { channel with
      queue := channel.queue.add jobs job
      running := channel.running.erase job
      failed := channel.failed.erase job }

def setRunning (job : JobId) (channel : Channel) : Option Channel :=
  if job ∈ channel.running then none
  else some
    { channel with
      queue := channel.queue.remove job
      running := insert job channel.running
      failed := channel.failed.erase job }

def setFailed (job : JobId) (channel : Channel) : Option Channel :=
  if job ∈ channel.failed then none
  else some
    { channel with
      queue := channel.queue.remove job
      running := channel.running.erase job
      failed := insert job channel.failed }

def hasCapacity (channel : Channel) : Bool :=
  if channel.sequential && decide (channel.failed ≠ ∅) then false
  else
    match channel.capacity with
    | none => true
    | some capacity => decide (capacity = 0) || decide ((channel.running.card : Int) < capacity)

/-- The jobs of the children, which the channel puts in its queue. -/
def enqueue (jobs : Jobs) (channel : Channel) (arrived : List JobId) : Channel :=
  { channel with queue := arrived.foldl (ChannelQueue.add jobs) channel.queue }

def paused (now : Time) (channel : Channel) : Bool :=
  decide (channel.throttle ≠ 0) && decide (channel.pauseUntil ≠ 0) &&
    decide (now < channel.pauseUntil)

def unpause (channel : Channel) : Channel :=
  if channel.throttle ≠ 0 ∧ channel.pauseUntil ≠ 0 then { channel with pauseUntil := 0 }
  else channel

def start (channel : Channel) (queue : ChannelQueue) (job : JobId) : Channel :=
  { channel with queue, running := insert job channel.running }

/-- The loop that yields the jobs while there is capacity. -/
def yieldJobs (now : Time) : Nat → Jobs → Channel → Jobs × Channel × List JobId
  | 0, jobs, channel => (jobs, channel, [])
  | rounds + 1, jobs, channel =>
      if channel.hasCapacity then
        match channel.queue.pop now jobs with
        | (jobs, none, queue) => (jobs, { channel with queue }, [])
        | (jobs, some job, queue) =>
            let started := channel.start queue job
            if started.throttle ≠ 0 then
              (jobs, { started with pauseUntil := now + 1000000 * started.throttle }, [job])
            else
              let later := started.yieldJobs now rounds jobs
              (later.1, later.2.1, job :: later.2.2)
      else (jobs, channel, [])

/-- `get_jobs_to_run` once the jobs of the children have arrived. -/
def dispatch (now : Time) (jobs : Jobs) (channel : Channel) : Jobs × Channel × List JobId :=
  if channel.paused now then (jobs, channel, [])
  else channel.unpause.yieldJobs now (channel.queue.length + 1) jobs

/-- The job object is still referenced by the channel. -/
def references (channel : Channel) (job : JobId) : Bool :=
  decide (job ∈ channel.queue.queue.known) || decide (job ∈ channel.queue.etaQueue.known) ||
    decide (job ∈ channel.running) || decide (job ∈ channel.failed)

end Channel

/-!
## The tree of channels
-/

/-- The children of a channel in the order in which they were created, each with its
own children. The root is the only channel of its list. -/
inductive Channels where
  | nil
  | cons (name : Name) (channel : Channel) (children siblings : Channels)

namespace Channels

def get? : Channels → Path → Option Channel
  | .nil, _ => none
  | .cons _ _ _ _, [] => none
  | .cons name channel children siblings, first :: rest =>
      if name = first then
        if rest = [] then some channel else children.get? rest
      else siblings.get? (first :: rest)

/-- Applies a method to the channel at the path and then to its parents, up to the root
or to the channel where it returns without going on. Whether it went past the first
channels of the list is returned too. -/
def climb (own above : Channel → Option Channel) : Channels → Path → Channels × Bool
  | .nil, _ => (.nil, false)
  | .cons name channel children siblings, [] => (.cons name channel children siblings, false)
  | .cons name channel children siblings, first :: rest =>
      if name = first then
        if rest = [] then
          match own channel with
          | none => (.cons name channel children siblings, false)
          | some changed => (.cons name changed children siblings, true)
        else
          let below := children.climb own above rest
          if below.2 then
            match above channel with
            | none => (.cons name channel below.1 siblings, false)
            | some changed => (.cons name changed below.1 siblings, true)
          else (.cons name channel below.1 siblings, false)
      else
        let others := siblings.climb own above (first :: rest)
        (.cons name channel children others.1, others.2)

def remove (channels : Channels) (path : Path) (job : JobId) : Channels :=
  (channels.climb (fun channel => some (channel.drop job)) (fun channel => some (channel.drop job))
    path).1

def setPending (jobs : Jobs) (channels : Channels) (path : Path) (job : JobId) : Channels :=
  (channels.climb (Channel.setPending jobs job) (fun channel => some (channel.drop job)) path).1

def setRunning (channels : Channels) (path : Path) (job : JobId) : Channels :=
  (channels.climb (Channel.setRunning job) (Channel.setRunning job) path).1

def setFailed (channels : Channels) (path : Path) (job : JobId) : Channels :=
  (channels.climb (Channel.setFailed job) (fun channel => some (channel.drop job)) path).1

/-- The jobs yielded by the channels of the list. Their parent puts them in its queue,
and those of the root are handed out. -/
def getJobsToRun (now : Time) : Jobs → Channels → Jobs × Channels × List JobId
  | jobs, .nil => (jobs, .nil, [])
  | jobs, .cons name channel children siblings =>
      let below := children.getJobsToRun now jobs
      let here := (channel.enqueue below.1 below.2.2).dispatch now below.1
      let others := siblings.getJobsToRun now here.1
      (others.1, .cons name here.2.1 below.2.1 others.2.1, here.2.2 ++ others.2.2)

def getWakeupTime (jobs : Jobs) : Time → Channels → Time × Channels
  | wakeup, .nil => (wakeup, .nil)
  | wakeup, .cons name channel children siblings =>
      if channel.hasCapacity then
        if channel.pauseUntil ≠ 0 then
          let soonest := if wakeup = 0 then channel.pauseUntil else min wakeup channel.pauseUntil
          let others := siblings.getWakeupTime jobs soonest
          (others.1, .cons name channel children others.2)
        else
          let own := channel.queue.getWakeupTime jobs wakeup
          let below := children.getWakeupTime jobs own.1
          let others := siblings.getWakeupTime jobs below.1
          (others.1, .cons name { channel with queue := own.2 } below.2 others.2)
      else
        let others := siblings.getWakeupTime jobs wakeup
        (others.1, .cons name channel children others.2)

def references (job : JobId) : Channels → Bool
  | .nil => false
  | .cons _ channel children siblings =>
      channel.references job || children.references job || siblings.references job

end Channels

end WorkflowStudio.Queue
