import WfcCore.Foundation.BatchQueue
import WfcCore.Foundation.Relay
import WfcCore.Foundation.Run

/-!
# The statistics aggregator

`aggregator_domain` feeds what it is pushed to a `multi_aggregator` and forwards the records that
one hands back to its targets: one by one, or through a packer that the pushout timer empties.
`wrtstat` is outside the repository, so the aggregator, the packer and `recompact` are parameters.
-/

namespace WfcCore.Statistics

open Foundation

/-- A request to record values under a name. `oldest` is bookkeeping that the source does not have:
the number of the earliest push whose values the record carries. -/
structure Push where
  name : String
  ts : Int
  data : List Int
  oldest : Nat := 0
  deriving DecidableEq

structure MultiPush where
  data : List Push
  deriving DecidableEq

structure Del where
  names : List String
  deriving DecidableEq

inductive Request where
  | push (req : Push)
  | multiPush (req : MultiPush)
  | del (req : Del)
  deriving DecidableEq

def Request.records : Request → List Push
  | .push req => [req]
  | .multiPush req => req.data
  | .del _ => []

inductive Response where
  | created
  | failed (error : String)
  deriving DecidableEq

/-- `wrtstat::multi_aggregator`, with the records it hands to its callback as a list. -/
structure MultiAggregator where
  State : Type
  fresh : State
  push : State → Push → State × List Push
  pushout : State → State × List Push
  del : State → String → State

structure Wrtstat where
  aggregator : MultiAggregator
  packer : BatchQueue Push MultiPush MultiPush.data
  recompact : MultiPush → Except String MultiPush

structure PackerOptions where
  disabled : Bool := true

structure AggregatorConfig where
  targets : List String := []
  pushoutTimerMs : Int := 0
  suspendPush : Bool := false
  packer : PackerOptions := {}

structure Sent where
  target : Nat
  request : Request
  deriving DecidableEq

/-- `targets` tells which weak pointers can still be locked. The last four fields record the
history: what was sent and answered, which records reached `push_next_` and how many pushes
reached the aggregator. -/
structure AggregatorDomain (w : Wrtstat) where
  options : AggregatorConfig
  enabledPacker : Bool
  suspendPush : Bool
  stat : w.aggregator.State
  packer : w.packer.State
  targets : List Bool
  pushoutTimer : Option Int
  sent : List Sent
  answered : List Response
  handed : List Push
  pushed : Nat

namespace AggregatorDomain

variable {w : Wrtstat}

/-! ### Configuration -/

def created (w : Wrtstat) (options : AggregatorConfig) : AggregatorDomain w where
  options := options
  enabledPacker := false
  suspendPush := false
  stat := w.aggregator.fresh
  packer := w.packer.empty
  targets := []
  pushoutTimer := none
  sent := []
  answered := []
  handed := []
  pushed := 0

def reconfigure (s : AggregatorDomain w) : AggregatorDomain w :=
  { s with
    suspendPush := s.options.suspendPush
    enabledPacker := !s.options.packer.disabled
    stat := w.aggregator.fresh
    packer := w.packer.empty }

/-- `initialize`. `found` tells which names `get_target` resolves. -/
def resolveTargets (s : AggregatorDomain w) (found : String → Bool) : AggregatorDomain w :=
  { s with targets := s.options.targets.map found }

def restart (s : AggregatorDomain w) (workflow : Bool) : AggregatorDomain w :=
  if workflow then
    { s with pushoutTimer := if s.options.pushoutTimerMs ≠ 0 then some s.options.pushoutTimerMs else none }
  else s

def started (w : Wrtstat) (options : AggregatorConfig) (found : String → Bool) (workflow : Bool) :
    AggregatorDomain w :=
  (((created w options).reconfigure).resolveTargets found).restart workflow

/-! ### Forwarding -/

def live (s : AggregatorDomain w) (j : Nat) : Bool := s.targets.getD j false

def send (s : AggregatorDomain w) (request : Request) (indices : List Nat) : AggregatorDomain w :=
  { s with sent := s.sent ++ (indices.filter s.live).map fun j => ⟨j, request⟩ }

/-- Copies go to targets 1, 2, … and the request itself is moved to target 0. -/
def forward (s : AggregatorDomain w) (request : Request) : AggregatorDomain w :=
  if s.targets.isEmpty then s
  else (s.send request (List.range' 1 (s.targets.length - 1))).send request [0]

def packNextMt (s : AggregatorDomain w) (req : Push) : AggregatorDomain w :=
  { s with packer := w.packer.push s.packer req }

def hand (s : AggregatorDomain w) (req : Push) : AggregatorDomain w :=
  { s with handed := s.handed ++ [req] }

def pushNext (s : AggregatorDomain w) (req : Push) : AggregatorDomain w :=
  if s.enabledPacker then (s.hand req).packNextMt req else (s.hand req).forward (.push req)

def mulitPushNextMt (s : AggregatorDomain w) : AggregatorDomain w :=
  if s.targets.isEmpty then s
  else
    let drained := w.packer.popAll s.packer
    drained.1.foldl (fun s next => s.forward (.multiPush next)) { s with packer := drained.2 }

/-! ### Requests -/

/-- `push_`, at the clock reading `now`. -/
def pushRecord (s : AggregatorDomain w) (req : Push) (now : Int) : AggregatorDomain w :=
  let req := if req.ts = 0 then { req with ts := now * 1000000 } else req
  if s.suspendPush then s
  else
    let handed := w.aggregator.push s.stat { req with oldest := s.pushed }
    handed.2.foldl pushNext { s with stat := handed.1, pushed := s.pushed + 1 }

/-- `create_response` makes nothing without a callback, and `send_response` has nothing to call. -/
def answer (s : AggregatorDomain w) (cb : Bool) (res : Response) : AggregatorDomain w :=
  if cb then { s with answered := s.answered ++ [res] } else s

/-- `bad_request` turns a null request away and leaves the domain alone. -/
def push (s : AggregatorDomain w) (req : Option Push) (cb : Bool) (now : Int) : AggregatorDomain w :=
  match req with
  | none => s
  | some req => (s.pushRecord req now).answer cb .created

/-- The clock is read for each record, `clock i` for record `i`. -/
def multiPush (s : AggregatorDomain w) (req : Option MultiPush) (cb : Bool) (clock : Nat → Int) :
    AggregatorDomain w :=
  match req with
  | none => s
  | some req =>
    match w.recompact req with
    | .error err => s.answer cb (.failed err)
    | .ok req => (req.data.zipIdx.foldl (fun s p => s.pushRecord p.1 (clock p.2)) s).answer cb .created

def del (s : AggregatorDomain w) (req : Option Del) (cb : Bool) : AggregatorDomain w :=
  match req with
  | none => s
  | some req =>
    let s := { s with stat := req.names.foldl w.aggregator.del s.stat }
    (s.send (.del req) (List.range s.targets.length)).answer cb .created

def pushoutTick (s : AggregatorDomain w) : AggregatorDomain w :=
  let handed := w.aggregator.pushout s.stat
  (handed.2.foldl pushNext { s with stat := handed.1 }).mulitPushNextMt

/-! ### Runs -/

/-- What can happen to a started aggregator. A target may go away at any time. -/
inductive Op where
  | push (req : Option Push) (cb : Bool) (now : Int)
  | multiPush (req : Option MultiPush) (cb : Bool) (clock : Nat → Int)
  | del (req : Option Del) (cb : Bool)
  | tick
  | expire (target : Nat)

def expire (s : AggregatorDomain w) (j : Nat) : AggregatorDomain w :=
  { s with targets := s.targets.set j false }

def step (s : AggregatorDomain w) : Op → Option (AggregatorDomain w)
  | .push req cb now => some (s.push req cb now)
  | .multiPush req cb clock => some (s.multiPush req cb clock)
  | .del req cb => some (s.del req cb)
  | .tick => if s.pushoutTimer.isSome then some s.pushoutTick else none
  | .expire j => some (s.expire j)

/-! ### The aggregator as a relay -/

def waiting (s : AggregatorDomain w) : List Push := w.packer.waiting s.packer

def received (s : AggregatorDomain w) (j : Nat) : List Push :=
  s.sent.flatMap fun m => if m.target = j then m.request.records else []

/-- Behind the aggregator the domain stores and forwards. -/
def relay (s : AggregatorDomain w) : Relay Push where
  handed := s.handed
  waiting := s.waiting
  received := s.received
  live := s.live

end AggregatorDomain

end WfcCore.Statistics
