import EspClawPlatform.Bus.Listener

namespace EspClawPlatform.Observability

open Bus (EventBusStats Subscription)

/-- What `observeEvent` has the registry count: an event by its type, and the
latency of a command, given in milliseconds, by its status. -/
inductive Sample
  | event (type : String)
  | command (status : CommandStatus) (durationMs : Nat)
  deriving DecidableEq

def observeEvent (event : DomainEvent Payload) : List Sample :=
  .event event.eventType ::
    match event.payload with
    | .commandCompleted _ _ status _ durationMs =>
        if event.eventType = "device.command.completed" then [.command status durationMs] else []
    | _ => []

inductive BusCounter
  | published | delivered | failed | timeouts
  deriving DecidableEq

def BusCounter.pick : BusCounter → EventBusStats → Nat
  | .published, stats => stats.published
  | .delivered, stats => stats.delivered
  | .failed, stats => stats.failed
  | .timeouts, stats => stats.timedOut

structure Exported where
  last : Nat := 0
  increments : List Int := []

def Exported.collect (c : Exported) (total : Nat) : Exported where
  last := total
  increments := c.increments ++ [(total : Int) - c.last]

def Exported.value (c : Exported) : Int := c.increments.foldl (· + ·) 0

/-- The subscription of `onModuleInit`, which is the first one and is never given up. -/
def metrics : Subscription where
  id := 0
  pattern := "**"
  name := "observability.metrics"
  retries := 0
  backoffMs := Bus.DEFAULT_BACKOFF_MS
  timeoutMs := Bus.DEFAULT_TIMEOUT_MS

structure State where
  bus : Bus.State Payload
  samples : List Sample := []
  exported : BusCounter → Exported := fun _ => {}

def init : State where
  bus := Bus.init.subscribe "**" { name := "observability.metrics" }

example : init.bus.subscriptions = [metrics] := rfl

inductive Action
  | bus (action : Bus.Action Payload)
  | scrape

/-- What the rest of the platform and the runtime may do with the bus. An event
says its type as `createEvent` was given it, and `observeEvent` does not fail. -/
def State.outside (s : State) : Bus.Action Payload → Bool
  | .publish event => event.eventType = event.payload.eventType
  | .unsubscribe id => id ≠ metrics.id
  | .settle link target (.error _) => (s.bus.heardBy metrics link target).isNone
  | _ => true

def State.observed (s : State) : Bus.Action Payload → Option (DomainEvent Payload)
  | .invoke link target => s.bus.heardBy metrics link target
  | _ => none

def step (s : State) : Action → Option State
  | .bus action =>
      if s.outside action then
        (Bus.step s.bus action).map fun bus =>
          { s with bus := bus, samples := s.samples ++ (s.observed action).toList.flatMap observeEvent }
      else none
  | .scrape => some { s with exported := fun c => (s.exported c).collect (c.pick s.bus.counters) }

end EspClawPlatform.Observability
