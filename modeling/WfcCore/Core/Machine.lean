import WfcCore.Config.Configuration
import WfcCore.Foundation.Run

/-!
# The core

`core.cpp` as a step function. The main thread runs `core::run`, which calls `_sunrise` once and then
`_idle` on every tick of the core timer, until `_idle` stops the io_context and `_stop` runs. One step
of it reads or writes one shared flag, or calls one component. Between any two of its steps signal
handlers, other threads and the called components themselves may start calls of `core_stop`,
`core_abort`, `core_restart`, `core_reconfigure` or a reload, and each such call writes its flags one
by one. Log messages are left out, and so are the checks that only choose their text.
-/

namespace WfcCore.Core

open Wfc Config

inductive CoreStage where
  | configuring | initializing | starting | isRun | stopping
deriving DecidableEq

/-- What `core` asks of a registered `iinstance`. -/
structure Instance where
  name : String
  startupPriority : Int
  shutdownPriority : Int
  isReconfigured : Bool
deriving DecidableEq

/-- A write to the shared state by a call that runs beside the main thread. -/
inductive Write where
  | gsStopSignal
  | stopSignalFlag
  | stopFlag
  | abortFlag
  | restartFlag
  | reconfigureFlag
  | mainconf (conf : Configuration)
deriving DecidableEq

/-- The calls from outside the main thread's own code. `reload` is the successful end of
`config::reload_and_reconfigure`. -/
inductive Call where
  | signalSigintHandler
  | coreReconfigure
  | coreStop
  | coreAbort
  | coreRestart
  | stop
  | reload (conf : Configuration)

/-- The writes of a call, in program order. `core_abort` writes `stop_signal_flag` under a test of
that flag, which amounts to the plain write. -/
def Call.writes : Call → List Write
  | .signalSigintHandler => [.stopSignalFlag, .gsStopSignal]
  | .coreReconfigure => [.reconfigureFlag]
  | .coreStop => [.stopFlag, .stopSignalFlag]
  | .coreAbort => [.stopSignalFlag, .gsStopSignal, .stopFlag, .abortFlag]
  | .coreRestart => [.stopFlag, .restartFlag, .stopSignalFlag]
  | .stop => [.stopFlag]
  | .reload conf => [.mainconf conf, .reconfigureFlag]

inductive Caller where
  | run | idle
deriving DecidableEq

inductive Phase where
  | initializing | starting | finishing
deriving DecidableEq

inductive Pc where
  | run
  | sunrise (caller : Caller)
  | configureNext (caller : Caller) (rest : List String)
  | getConfig (caller : Caller) (component : String) (rest : List String)
  | configure (caller : Caller) (component section_ : String) (rest : List String)
  | configureFailed (caller : Caller) (rest : List String)
  | checkStop (caller : Caller) (next : Phase)
  | checkAbort (caller : Caller) (next : Phase)
  | collect (caller : Caller) (phase : Phase)
  | each (caller : Caller) (phase : Phase) (rest : List Instance)
  | invoke (caller : Caller) (phase : Phase) (m : Instance) (rest : List Instance)
  | sunriseReturn (caller : Caller)
  | checkStarted
  | afterStart
  | mainLoop
  | idleSignal
  | idleSetStop
  | idleStop
  | idleIoStop
  | idleReconfigure
  | idleClear
  | idleFinal
  | stop
  | stopCollect
  | stopEach (rest : List Instance)
  | stopAfter
  | result
  | returned (code : Int)
deriving DecidableEq

inductive Event where
  | stage (s : CoreStage)
  | sunrise
  | configure (component section_ : String) (ok : Bool)
  | initialized (m : Instance)
  | started (m : Instance)
  | sunriseEnd (aborted : Bool)
  | afterStart
  | tick (aborted : Bool)
  | ioStop
  | idle (again : Bool)
  | beforeStop
  | stop (m : Instance)
  | afterStop
deriving DecidableEq

structure State where
  gsStopSignal : Bool
  stopSignalFlag : Bool
  reconfigureFlag : Bool
  stopFlag : Bool
  abortFlag : Bool
  restartFlag : Bool
  mainconf : Configuration
  dirty : Bool
  instances : List Instance
  calls : List (List Write)
  pc : Pc
  events : List Event

/-- The state that the constructor leaves and `run` enters. `_restart_flag` has no initializer. -/
def initial (restartFlag : Bool) (mainconf : Configuration) (dirty : Bool) (instances : List Instance) :
    State where
  gsStopSignal := false
  stopSignalFlag := false
  reconfigureFlag := false
  stopFlag := false
  abortFlag := false
  restartFlag := restartFlag
  mainconf := mainconf
  dirty := dirty
  instances := instances
  calls := []
  pc := .run
  events := []

def State.perform (s : State) : Write → State
  | .gsStopSignal => { s with gsStopSignal := true }
  | .stopSignalFlag => { s with stopSignalFlag := true }
  | .stopFlag => { s with stopFlag := true }
  | .abortFlag => { s with abortFlag := true }
  | .restartFlag => { s with restartFlag := true }
  | .reconfigureFlag => { s with reconfigureFlag := true }
  | .mainconf conf => { s with mainconf := conf }

def State.goto (s : State) (pc : Pc) : State := { s with pc := pc }

def State.emit (s : State) (e : Event) : State := { s with events := s.events ++ [e] }

/-- The components that the registry lists, in its order, and whether a config module is set. -/
structure Program where
  components : List String
  hasConfig : Bool

def State.selected (s : State) : Phase → List Instance
  | .initializing => s.instances.filter fun m => s.dirty || m.isReconfigured
  | _ => s.instances

def Phase.stage : Phase → CoreStage
  | .initializing => .initializing
  | .starting => .starting
  | .finishing => .isRun

def Phase.event : Phase → Instance → Event
  | .initializing => .initialized
  | _ => .started

def Phase.following : Phase → Phase
  | .initializing => .starting
  | _ => .finishing

/-- One statement of the main thread, where nothing outside the model decides it. -/
def mainStep (p : Program) (s : State) : Option State :=
  match s.pc with
  | .run => some ({ s with gsStopSignal := false }.goto (.sunrise .run))
  | .sunrise caller =>
    some (((s.emit .sunrise).emit (.stage .configuring)).goto
      (.configureNext caller (if p.hasConfig then p.components else [])))
  | .configureNext caller [] => some (s.goto (.checkStop caller .initializing))
  | .configureNext caller (component :: rest) =>
    some (s.goto (if s.abortFlag then .configureNext caller rest else .getConfig caller component rest))
  | .getConfig caller component rest =>
    let confstr := getConfig component s.mainconf
    some (s.goto (if confstr = "" then .configureNext caller rest else .configure caller component confstr rest))
  | .configureFailed caller rest => some ({ s with abortFlag := true }.goto (.configureNext caller rest))
  | .checkStop caller next =>
    some (s.goto (if s.stopFlag then .sunriseReturn caller else .checkAbort caller next))
  | .checkAbort caller .finishing =>
    some (if s.abortFlag then s.goto (.sunriseReturn caller)
      else (s.emit (.stage .isRun)).goto (.sunriseReturn caller))
  | .checkAbort caller next =>
    some (if s.abortFlag then s.goto (.checkStop caller next.following)
      else (s.emit (.stage next.stage)).goto (.collect caller next))
  | .collect caller phase =>
    if s.selected phase = [] then some (s.goto (.checkStop caller phase.following)) else none
  | .each caller .initializing [] => some ({ s with dirty := false }.goto (.checkStop caller .starting))
  | .each caller _ [] => some (s.goto (.checkStop caller .finishing))
  | .each caller phase (m :: rest) =>
    some (s.goto (if s.abortFlag then .each caller phase rest else .invoke caller phase m rest))
  | .invoke caller phase m rest => some ((s.emit (phase.event m)).goto (.each caller phase rest))
  | .sunriseReturn caller =>
    some ((s.emit (.sunriseEnd s.abortFlag)).goto (if caller = .run then .checkStarted else .idleFinal))
  | .checkStarted => some (s.goto (if s.stopFlag then .mainLoop else .afterStart))
  | .afterStart => some ((s.emit .afterStart).goto .mainLoop)
  | .idleSignal => some (s.goto (if s.gsStopSignal then .idleSetStop else .idleStop))
  | .idleSetStop => some ({ s with stopFlag := true }.goto .idleStop)
  | .idleStop => some (s.goto (if s.stopFlag then .idleIoStop else .idleReconfigure))
  | .idleIoStop => some (((s.emit .ioStop).emit (.idle false)).goto .stop)
  | .idleReconfigure => some (s.goto (if s.reconfigureFlag then .idleClear else .idleFinal))
  | .idleClear => some ({ s with reconfigureFlag := false }.goto (.sunrise .idle))
  -- a stop that the sunrise itself raised makes `_idle` call itself
  | .idleFinal => some (if s.stopFlag then s.goto .idleSignal else (s.emit (.idle true)).goto .mainLoop)
  | .stop => some (((s.emit (.stage .stopping)).emit .beforeStop).goto .stopCollect)
  | .stopEach [] => some (s.goto .stopAfter)
  | .stopEach (m :: rest) => some ((s.emit (.stop m)).goto (.stopEach rest))
  | .stopAfter => some ((s.emit .afterStop).goto .result)
  | .result => some (s.goto (.returned (if s.restartFlag then -1 else 0)))
  | .configure .. | .stopCollect | .mainLoop | .returned _ => none

/-- The steps of the system. `configured` and `sorted` are steps of the main thread whose outcome is
open here: the answer of a component, and the order that `std::sort` gives to equal priorities. -/
inductive Action where
  | call (c : Call)
  | write (i : Nat)
  | registry (dirty : Bool) (instances : List Instance)
  | tick
  | main
  | configured (ok : Bool)
  | sorted (order : List Instance)

def ordered (priority : Instance → Int) (order instances : List Instance) : Bool :=
  decide (order.Perm instances) && decide (order.Pairwise fun a b => priority a ≤ priority b)

def sortStep (s : State) (order : List Instance) : Option State :=
  match s.pc with
  | .collect caller phase =>
    if s.selected phase ≠ [] ∧ ordered Instance.startupPriority order (s.selected phase) then
      some (s.goto (.each caller phase order))
    else none
  | .stopCollect =>
    if ordered Instance.shutdownPriority order s.instances then some (s.goto (.stopEach order)) else none
  | _ => none

def configuredStep (s : State) (ok : Bool) : Option State :=
  match s.pc with
  | .configure caller component section_ rest =>
    some ((s.emit (.configure component section_ ok)).goto
      (if ok then .configureNext caller rest else .configureFailed caller rest))
  | _ => none

def writeStep (s : State) (i : Nat) : Option State :=
  match s.calls[i]? with
  | some (w :: rest) => some { s.perform w with calls := s.calls.set i rest }
  | _ => none

def step (p : Program) (s : State) : Action → Option State
  | .call c => some { s with calls := s.calls ++ [c.writes] }
  | .write i => writeStep s i
  | .registry dirty instances => some { s with dirty := dirty, instances := instances }
  | .tick => if s.pc = .mainLoop then some ((s.emit (.tick s.abortFlag)).goto .idleSignal) else none
  | .main => mainStep p s
  | .configured ok => configuredStep s ok
  | .sorted order => sortStep s order

end WfcCore.Core
