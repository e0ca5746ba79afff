import IceTouch.Library.Machine

/-!
# The life cycle of an object adapter

`activate`, `hold`, `deactivate`, `waitForDeactivate`, `destroy` and the direct count of
`ObjectAdapterI`. A section under the adapter's mutex is one step of a call, as is everything
that a call does between two of them; the calls of all threads take their steps in any order.
The order of updates, activations and uses of the instance is recorded in a trace, the latest
first.
-/

namespace IceTouch.Adapters

structure Config where
  noConfig : Bool
  /-- `_id` is not empty. -/
  hasId : Bool
  registerProcess : Bool
  /-- `Ice.ServerId` is not empty. -/
  hasServerId : Bool
deriving DecidableEq

/-- The state of an `IncomingConnectionFactory`. -/
inductive FactoryState where
  | holding
  | active
  | closed
  | finished
deriving DecidableEq

inductive Mark where
  /-- An update of the locator registry, with a null proxy or with one of the adapter. -/
  | updateSent (clears : Bool)
  | updateCompleted (clears : Bool)
  | routerErased
  | factoriesActivated
  /-- `deactivate` has set `_deactivated`. -/
  | deactivated
  /-- `_instance` is used by a call of `activate` or `deactivate`. -/
  | instanceUsed (gone : Bool)
  /-- The assertion of `activate`. -/
  | asserted (holds : Bool)
deriving DecidableEq

/-- Where `updateLocatorRegistry` stands. -/
inductive UpdateStage where
  | registry
  | send
  | reply
  /-- The section that adds the servant of the process. -/
  | process
  | sendProcess
  | replyProcess
deriving DecidableEq

structure Update where
  locatorInfo : Bool
  registerProcess : Bool
  stage : UpdateStage
deriving DecidableEq

inductive Activation where
  | entry
  /-- `createDirectProxy` for the update. -/
  | proxy (work : Update)
  | update (work : Update)
  | complete
  /-- The handler of a `LocalException`. -/
  | abandon
deriving DecidableEq

/-- The lists are the copies of `_incomingConnectionFactories`. -/
inductive Deactivation where
  | entry
  | waiting
  | update (factories : List Nat) (work : Update)
  | dismantle (factories : List Nat)
deriving DecidableEq

inductive Wait where
  | entry
  | waiting
  | finishing (factories : List Nat)
deriving DecidableEq

/-- A call and where it stands. `destroy` goes on as a `deactivate` and a `waitForDeactivate`
that are nested in it. -/
inductive Call where
  | activate (stage : Activation)
  | deactivate (nested : Bool) (stage : Deactivation)
  | waitForDeactivate (nested : Bool) (stage : Wait)
  | destroy
  /-- `destroy`, once `waitForDeactivate` has returned. -/
  | cleanUp (factories : List Nat)
  | returned
deriving DecidableEq

structure State where
  deactivated : Bool
  waitForActivate : Bool
  activateOneOffDone : Bool
  destroying : Bool
  destroyed : Bool
  /-- `_instance` is null. -/
  gone : Bool
  locatorInfo : Bool
  routerInfo : Bool
  /-- `_processId` is set. -/
  processId : Bool
  directCount : Nat
  /-- `_incomingConnectionFactories` -/
  incoming : List Nat
  factories : List FactoryState
  calls : List Call
  trace : List Mark
deriving DecidableEq

/-- What a remote call comes to. The registry of a locator may be null. -/
inductive Outcome where
  | success
  | nothing
  | failure
deriving DecidableEq

def start (locatorInfo routerInfo : Bool) (factories : Nat) : State where
  deactivated := false
  waitForActivate := false
  activateOneOffDone := false
  destroying := false
  destroyed := false
  gone := false
  locatorInfo := locatorInfo
  routerInfo := routerInfo
  processId := false
  directCount := 0
  incoming := List.range factories
  factories := List.replicate factories .holding
  calls := []
  trace := []

namespace State

def mark (s : State) (mark : Mark) : State := { s with trace := mark :: s.trace }

def useInstance (s : State) : State := s.mark (.instanceUsed s.gone)

/-- `setState` of these factories. -/
def setFactories (s : State) (factories : List Nat) (change : FactoryState → FactoryState) :
    State :=
  { s with
    factories := s.factories.mapIdx fun index state =>
      if index ∈ factories then change state else state }

end State

def FactoryState.activate : FactoryState → FactoryState
  | .holding => .active
  | state => state

def FactoryState.hold : FactoryState → FactoryState
  | .active => .holding
  | state => state

/-- `activate` of all incoming connection factories. -/
def State.activateFactories (s : State) : State :=
  (s.setFactories s.incoming FactoryState.activate).mark .factoriesActivated

inductive Progress where
  | goes (update : Update)
  | returns
  | throws
deriving DecidableEq

def Update.afterAdapter (config : Config) (update : Update) : Progress :=
  if update.registerProcess && config.hasServerId then .goes { update with stage := .process }
  else .returns

/-- One step of `updateLocatorRegistry`. -/
def Update.step (config : Config) (clears : Bool) (outcome : Outcome) (update : Update)
    (s : State) : Progress × State :=
  match update.stage with
  | .registry =>
      if !update.registerProcess && !config.hasId then (.returns, s)
      else
        match if update.locatorInfo then outcome else .nothing with
        | .failure => (.throws, s)
        | .nothing => (.returns, if update.registerProcess then s.useInstance else s)
        | .success =>
            (if config.hasId then .goes { update with stage := .send }
              else update.afterAdapter config,
              if update.registerProcess then s.useInstance else s)
  | .send => (.goes { update with stage := .reply }, s.mark (.updateSent clears))
  | .reply =>
      (if outcome = .failure then .throws else update.afterAdapter config,
        (s.mark (.updateCompleted clears)).useInstance)
  | .process =>
      if s.processId then (.goes { update with stage := .sendProcess }, s)
      else if s.deactivated then (.throws, s)
      else (.goes { update with stage := .sendProcess }, { s with processId := true }.useInstance)
  | .sendProcess =>
      if s.deactivated then (.throws, s)
      else (.goes { update with stage := .replyProcess }, s.useInstance)
  | .replyProcess => (if outcome = .failure then .throws else .returns, s.useInstance)

def Activation.step (config : Config) (outcome : Outcome) (s : State) :
    Activation → Call × State
  | .entry =>
      if s.deactivated then (.returned, s)
      else if s.activateOneOffDone then (.returned, s.activateFactories)
      else
        let registerProcess := !config.noConfig && config.registerProcess
        let waiting := { s with waitForActivate := true }
        (.activate (.proxy ⟨s.locatorInfo, registerProcess, .registry⟩),
          if config.noConfig then waiting else waiting.useInstance)
  | .proxy work =>
      if s.deactivated then (.activate .abandon, s)
      else (.activate (.update work), s.useInstance)
  | .update work =>
      match work.step config false outcome s with
      | (.goes next, after) => (.activate (.update next), after)
      | (.returns, after) => (.activate .complete, after)
      | (.throws, after) => (.activate .abandon, after)
  | .complete =>
      (.returned,
        { s.mark (.asserted !s.deactivated) with
          waitForActivate := false
          activateOneOffDone := true }.activateFactories)
  | .abandon => (.returned, { s with waitForActivate := false })

/-- The section of `deactivate` once no activation is waited for. -/
def State.beginDeactivation (s : State) (nested : Bool) : Call × State :=
  let erased := if s.routerInfo then s.useInstance.mark .routerErased else s
  (.deactivate nested (.update s.incoming ⟨s.locatorInfo, false, .registry⟩),
    { erased.useInstance with deactivated := true }.mark .deactivated)

/-- `destroy` goes on where a nested `deactivate` returns. -/
def afterDeactivate (nested : Bool) : Call :=
  if nested then .waitForDeactivate true .entry else .returned

def Deactivation.step (config : Config) (outcome : Outcome) (nested : Bool) (s : State) :
    Deactivation → Option (Call × State)
  | .entry =>
      if s.deactivated then some (afterDeactivate nested, s)
      else if s.waitForActivate then some (.deactivate nested .waiting, s)
      else some (s.beginDeactivation nested)
  | .waiting => if s.waitForActivate then none else some (s.beginDeactivation nested)
  | .update factories work =>
      match work.step config true outcome s with
      | (.goes next, after) => some (.deactivate nested (.update factories next), after)
      | (_, after) => some (.deactivate nested (.dismantle factories), after)
  | .dismantle factories =>
      some (afterDeactivate nested, s.setFactories factories fun _ => .closed)

def afterWait (nested : Bool) (factories : List Nat) : Call :=
  if nested then .cleanUp factories else .returned

def State.allFinished (s : State) (factories : List Nat) : Bool :=
  factories.all fun index => s.factories[index]? = some .finished

def Wait.step (nested : Bool) (s : State) : Wait → Option (Call × State)
  | .entry =>
      if s.destroyed then some (afterWait nested [], s)
      else if s.deactivated ∧ s.directCount = 0 then
        some (.waitForDeactivate nested (.finishing s.incoming), s)
      else some (.waitForDeactivate nested .waiting, s)
  | .waiting =>
      if s.deactivated ∧ s.directCount = 0 then
        some (.waitForDeactivate nested (.finishing s.incoming), s)
      else none
  | .finishing factories =>
      if s.allFinished factories then some (afterWait nested factories, s) else none

def Call.step (config : Config) (outcome : Outcome) (s : State) : Call → Option (Call × State)
  | .activate stage => some (stage.step config outcome s)
  | .deactivate nested stage => stage.step config outcome nested s
  | .waitForDeactivate nested stage => stage.step nested s
  | .destroy =>
      if s.destroying then none
      else if s.destroyed then some (.returned, s)
      else some (.deactivate true .entry, { s with destroying := true })
  | .cleanUp _ =>
      some (.returned,
        { s with
          destroying := false
          destroyed := true
          incoming := []
          gone := true
          routerInfo := false
          locatorInfo := false })
  | .returned => none

inductive Event where
  | activate
  | deactivate
  | waitForDeactivate
  | destroy
  /-- The next step of a call. -/
  | run (id : Nat) (outcome : Outcome)
  | hold
  | incDirectCount
  | decDirectCount
  /-- A factory that is closed finishes. -/
  | finished (factory : Nat)
deriving DecidableEq

def State.call (s : State) (call : Call) : State := { s with calls := s.calls ++ [call] }

def step (config : Config) : Event → State → Option State
  | .activate, s => some (s.call (.activate .entry))
  | .deactivate, s => some (s.call (.deactivate false .entry))
  | .waitForDeactivate, s => some (s.call (.waitForDeactivate false .entry))
  | .destroy, s => some (s.call .destroy)
  | .run id outcome, s => do
      let call ← s.calls[id]?
      let (next, after) ← call.step config outcome s
      some { after with calls := after.calls.set id next }
  | .hold, s => some (if s.deactivated then s else s.setFactories s.incoming FactoryState.hold)
  | .incDirectCount, s =>
      some (if s.deactivated then s else { s with directCount := s.directCount + 1 })
  | .decDirectCount, s =>
      if 0 < s.directCount then some { s with directCount := s.directCount - 1 } else none
  | .finished factory, s =>
      if s.factories[factory]? = some .closed then
        some { s with factories := s.factories.set factory .finished }
      else none

end IceTouch.Adapters
