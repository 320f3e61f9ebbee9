import Mathlib.Data.List.SplitOn
import WorkflowStudio.Expression.Resolver
import WorkflowStudio.Lib.OrderedMap
import WorkflowStudio.Queue.Channels

/-! The channel manager: the names and the configuration of the channels, and what the
notifications of the database do to the jobs in them. -/

set_option autoImplicit false

namespace WorkflowStudio.Queue

open Lib

/-!
## Configuration text
-/

/-- A configuration dictionary: its name and capacity, and its other items, with
nothing for the value `True` of a key that is given alone. -/
structure ChannelConfig where
  name : Name
  capacity : Int
  items : OrderedMap Name (Option Name)

def splitStrip (separator : Char) (text : Name) : List Name :=
  (text.splitOn separator).map Expression.stripChars

def invalidConfig (configString reason : Name) : Name :=
  "Invalid channel config ".toList ++ configString ++ ": ".toList ++ reason

section ConfigItems

variable (configString : Name)

/-- The loop over the items after the capacity. -/
def parseConfigItems : OrderedMap Name (Option Name) → List Name →
    Except Name (OrderedMap Name (Option Name))
  | items, [] => .ok items
  | items, configItem :: rest =>
      let add (key : Name) (value : Option Name) :=
        if key = "name".toList ∨ key = "capacity".toList ∨ key ∈ items.keys then
          .error (invalidConfig configString ("duplicate key ".toList ++ key))
        else parseConfigItems (items.set key value) rest
      match splitStrip '=' configItem with
      | [key] => add key none
      | [key, value] => add key (some value)
      | _ =>
          .error (invalidConfig configString ("incorrect config item ".toList ++ configItem))

variable (int : Name → Except Name Int)

def parseChannelConfig (channelConfigString : Name) : Except Name ChannelConfig :=
  match splitStrip ':' channelConfigString with
  | [] => .error (invalidConfig configString "missing channel name".toList)
  | name :: configItems =>
      if name = [] then .error (invalidConfig configString "missing channel name".toList)
      else
        match configItems with
        | [] => .ok { name, capacity := 1, items := .empty }
        | capacity :: configItems =>
            match int capacity with
            | .error _ =>
                .error (invalidConfig configString ("invalid capacity ".toList ++ capacity))
            | .ok capacity =>
                match parseConfigItems configString .empty configItems with
                | .error raised => .error raised
                | .ok items => .ok { name, capacity, items }

/-- The loop over the entries; an empty one is ignored. -/
def parseEntries : List Name → Except Name (List ChannelConfig)
  | [] => .ok []
  | entry :: rest =>
      if entry = [] then parseEntries rest
      else
        match parseChannelConfig configString int entry with
        | .error raised => .error raised
        | .ok config =>
            match parseEntries rest with
            | .error raised => .error raised
            | .ok configs => .ok (config :: configs)

end ConfigItems

/-- `config_string.replace("\n", ",")`. -/
def joinLines (text : Name) : Name :=
  text.map fun char => if char = '\n' then ',' else char

def parseSimpleConfig (int : Name → Except Name Int) (configString : Name) :
    Except Name (List ChannelConfig) :=
  parseEntries (joinLines configString) int (splitStrip ',' (joinLines configString))

/-- `bool(config.get("sequential", False))`. -/
def ChannelConfig.sequential (config : ChannelConfig) : Bool :=
  match config.items.get? "sequential".toList with
  | none => false
  | some none => true
  | some (some text) => decide (text ≠ [])

/-- `int(config.get("throttle", 0))`. -/
def ChannelConfig.throttle (int : Name → Except Name Int) (config : ChannelConfig) :
    Except Name Int :=
  match config.items.get? "throttle".toList with
  | none => .ok 0
  | some none => .ok 1
  | some (some text) => int text

/-- The runner does not start with a configuration that is refused here. -/
def Channel.configure (int : Name → Except Name Int) (channel : Channel)
    (config : ChannelConfig) : Except Name Channel :=
  match config.throttle int with
  | .error raised => .error raised
  | .ok throttle =>
      if config.sequential = true ∧ config.capacity ≠ 1 then
        .error "A sequential channel must have a capacity of 1".toList
      else
        .ok
          { channel with
            capacity := some config.capacity
            queue := { channel.queue with sequential := config.sequential }
            throttle }

/-!
## Channels by name
-/

def rootName : Name := "root".toList

namespace Channels

/-- A channel of its own, with the channels below it on the way. -/
def fresh : Path → Channels
  | [] => .nil
  | name :: rest => .cons name {} (fresh rest) .nil

/-- Walks down the path, and creates the channels that are missing on it. -/
def ensure : Channels → Path → Channels
  | .nil, path => fresh path
  | .cons name channel children siblings, [] => .cons name channel children siblings
  | .cons name channel children siblings, first :: rest =>
      if name = first then .cons name channel (children.ensure rest) siblings
      else .cons name channel children (siblings.ensure (first :: rest))

/-- Replaces the channel at the path. -/
def set : Channels → Path → Channel → Channels
  | .nil, _, _ => .nil
  | .cons name channel children siblings, [], _ => .cons name channel children siblings
  | .cons name channel children siblings, first :: rest, changed =>
      if name = first then
        if rest = [] then .cons name changed children siblings
        else .cons name channel (children.set rest changed) siblings
      else .cons name channel children (siblings.set (first :: rest) changed)

/-- `_channels_by_name` has the channels of the tree under their full names. -/
def has (channels : Channels) (path : Path) : Bool :=
  (channels.get? path).isSome

/-- The loop for the first parent that is configured, over the names of the channel from
the last one on. -/
def configuredParent (channels : Channels) : List Name → Path
  | [] => [rootName]
  | _ :: parents =>
      if parents.reverse = [rootName] then [rootName]
      else if channels.has parents.reverse then parents.reverse
      else channels.configuredParent parents

/-- The full name of the channel, with the root channel put before it. -/
def fullName (channelName : Name) : Name :=
  if (rootName ++ ['.']).isPrefixOf channelName then channelName
  else rootName ++ ['.'] ++ channelName

/-- The channel is given by its path. There is none where it does not exist and must
not be created. -/
def getChannelByName (channels : Channels) (channelName : Option Name)
    (autocreate parentFallback : Bool) : Option (Path × Channels) :=
  match channelName with
  | none => some ([rootName], channels)
  | some channelName =>
      if channelName = [] ∨ channelName = rootName then some ([rootName], channels)
      else
        let path := (fullName channelName).splitOn '.'
        if channels.has path then some (path, channels)
        else if !autocreate && !parentFallback then none
        else
          let parent :=
            if parentFallback then channels.configuredParent path.reverse else [rootName]
          -- every name after the root is walked again below the parent
          let target := parent ++ path.tail
          some (target, channels.ensure target)

end Channels

/-!
## The manager
-/

structure ChannelManager where
  channels : Channels
  jobs : Jobs
  nextId : JobId
  jobsByUuid : OrderedMap String JobId

/-- What the runner reads of a job in the database. -/
structure JobData where
  dbName : String
  channelName : Option Name
  uuid : String
  seq : Nat
  dateCreated : Time
  priority : Int
  eta : Option Time
  state : Option JobState
  moment : eta ≠ some 0

namespace ChannelManager

def init : ChannelManager where
  channels := .cons rootName { capacity := some 1 } .nil .nil
  jobs := fun _ => default
  nextId := 0
  jobsByUuid := .empty

def getChannelFromConfig (int : Name → Except Name Int) (manager : ChannelManager)
    (config : ChannelConfig) : Except Name ChannelManager :=
  match manager.channels.getChannelByName (some config.name) true false with
  | none => .error ("Channel not found".toList)
  | some (path, channels) =>
      match channels.get? path with
      | none => .error ("Channel not found".toList)
      | some channel =>
          match channel.configure int config with
          | .error raised => .error raised
          | .ok configured => .ok { manager with channels := channels.set path configured }

def configureAll (int : Name → Except Name Int) :
    ChannelManager → List ChannelConfig → Except Name ChannelManager
  | manager, [] => .ok manager
  | manager, config :: rest =>
      match manager.getChannelFromConfig int config with
      | .error raised => .error raised
      | .ok configured => configureAll int configured rest

def simpleConfigure (int : Name → Except Name Int) (manager : ChannelManager)
    (configString : Name) : Except Name ChannelManager :=
  match parseSimpleConfig int configString with
  | .error raised => .error raised
  | .ok configs => manager.configureAll int configs

/-- The values of `_jobs_by_uuid` are weak: a job that nothing else references is not
in it any more. -/
def findJob (manager : ChannelManager) (uuid : String) : Option JobId :=
  (manager.jobsByUuid.get? uuid).filter manager.channels.references

def removeFromChannel (manager : ChannelManager) (job : JobId) : ChannelManager :=
  { manager with channels := manager.channels.remove (manager.jobs job).channel job }

def forget (manager : ChannelManager) (job : JobId) : ChannelManager :=
  { manager.removeFromChannel job with
    jobsByUuid := manager.jobsByUuid.erase (manager.jobs job).uuid }

def removeJob (manager : ChannelManager) (uuid : String) : ChannelManager :=
  match manager.findJob uuid with
  | none => manager
  | some job => manager.forget job

def removeDb (manager : ChannelManager) (dbName : String) : ChannelManager :=
  ((manager.jobsByUuid.values.filter manager.channels.references).filter
    fun job => decide ((manager.jobs job).dbName = dbName)).foldl forget manager

/-- `ChannelJob(...)`, which is put in the dictionary. -/
def createJob (manager : ChannelManager) (data : JobData) (channel : Path) : ChannelManager :=
  { manager with
    jobs := fun other =>
      if other = manager.nextId then
        { dbName := data.dbName, channel, uuid := data.uuid, seq := data.seq
          dateCreated := data.dateCreated, priority := data.priority, eta := data.eta
          moment := data.moment }
      else manager.jobs other
    nextId := manager.nextId + 1
    jobsByUuid := manager.jobsByUuid.set data.uuid manager.nextId }

/-- The state transitions of `notify`. -/
def transition (manager : ChannelManager) (job : JobId) : Option JobState → ChannelManager
  | none | some .done | some .cancelled => manager.removeFromChannel job
  | some .pending =>
      { manager with
        channels := manager.channels.setPending manager.jobs (manager.jobs job).channel job }
  | some .enqueued | some .started =>
      { manager with channels := manager.channels.setRunning (manager.jobs job).channel job }
  | some .failed =>
      { manager with channels := manager.channels.setFailed (manager.jobs job).channel job }
  | some .waitDependencies => manager

/-- The properties that influence the scheduling have changed. -/
def rescheduled (job : ChannelJob) (data : JobData) (channel : Path) : Bool :=
  decide (data.seq ≠ job.seq) || decide (data.priority ≠ job.priority) ||
    decide (data.eta ≠ job.eta) || decide (channel ≠ job.channel)

/-- Whether an assertion failed is returned too; the channel that was looked up is then
in the tree already. -/
def notify (manager : ChannelManager) (data : JobData) : ChannelManager × Bool :=
  match manager.channels.getChannelByName data.channelName false true with
  | none => (manager, true)
  | some (channel, channels) =>
      let manager := { manager with channels }
      match manager.findJob data.uuid with
      | none =>
          ((manager.createJob data channel).transition manager.nextId data.state, false)
      | some job =>
          if (manager.jobs job).dbName ≠ data.dbName ∨
              (manager.jobs job).dateCreated ≠ data.dateCreated then (manager, true)
          else if rescheduled (manager.jobs job) data channel then
            let removed := manager.removeJob data.uuid
            ((removed.createJob data channel).transition removed.nextId data.state, false)
          else (manager.transition job data.state, false)

def getJobsToRun (now : Time) (manager : ChannelManager) : ChannelManager × List JobId :=
  let outcome := manager.channels.getJobsToRun now manager.jobs
  ({ manager with jobs := outcome.1, channels := outcome.2.1 }, outcome.2.2)

def getWakeupTime (manager : ChannelManager) : Time × ChannelManager :=
  let outcome := manager.channels.getWakeupTime manager.jobs 0
  (outcome.1, { manager with channels := outcome.2 })

end ChannelManager

end WorkflowStudio.Queue
