import LedgerQuery.Fetch.Call
import LedgerQuery.Http.Exchange

namespace LedgerQuery.Rehearsal

structure Signal where
  flag : Bool
  onCall : Option Int
  onWait : Option Int
  atTime : Option Number

inductive Sent
  | operation (op : Operation) (request : Display)
  | http (request : Http.Request)

structure Stage (ω : Type) where
  clock : Number
  draws : Array Number
  drawn : Nat
  /-- The outcomes to come, each with the time it takes. -/
  outcomes : List (Option Number × ω)
  /-- Without it nobody can cancel, and waits leave no trace. -/
  signal : Option Signal
  calls : Nat
  waitCount : Nat
  sent : List Sent
  waits : List Number
  logs : List (LogEntry Number)

namespace Stage

variable {ω : Type}

def initial (clock : Number) (draws : Array Number) (outcomes : List (Option Number × ω))
    (signal : Option Signal) : Stage ω :=
  ⟨clock, draws, 0, outcomes, signal, 0, 0, [], [], []⟩

def fresh (s : Stage ω) : Stage ω := { s with sent := [], waits := [], logs := [] }

def clearSignal (s : Stage ω) : Stage ω :=
  { s with signal := s.signal.map fun g => { g with flag := false, atTime := none } }

def advance (time : Number) (s : Stage ω) : Stage ω := { s with clock := s.clock + time }

def setFlag (s : Stage ω) : Stage ω :=
  { s with signal := s.signal.map fun g => { g with flag := true } }

def isCancelled (s : Stage ω) : Bool :=
  match s.signal with
  | none => false
  | some g => g.flag || g.atTime.any (· ≤ s.clock)

def draw : StateM (Stage ω) Number := do
  let s ← get
  set { s with drawn := s.drawn + 1 }
  return s.draws.getD (s.drawn % s.draws.size) (.int 0)

/-- The state after a wait: the wish is set, or the clock has moved to the time at which it is set, or
by the whole delay. -/
def waited (delay : Number) (s : Stage ω) : Stage ω :=
  match s.signal with
  | none => s
  | some g =>
    let s := { s with waitCount := s.waitCount + 1, waits := s.waits ++ [delay] }
    if s.isCancelled then s
    else if g.onWait = some (s.waitCount : Int) then s.setFlag
    else
      match g.atTime.filter (· ≤ s.clock + delay) with
      | some t => { s with clock := t }.setFlag
      | none => s.advance delay

def wait (delay : Number) : StateM (Stage ω) (Except Incident Bool) := do
  if (← get).signal.isNone then return World.undisturbed delay
  modify (waited delay)
  return .ok (← get).isCancelled

def begun (request : Sent) (s : Stage ω) : Stage ω :=
  let s := { s with calls := s.calls + 1, sent := s.sent ++ [request] }
  match s.signal with
  | some g => if g.onCall = some (s.calls : Int) then s.setFlag else s
  | none => s

def noOutcome : Incident := ⟨"RuntimeError", "No more outcomes queued"⟩

def nextOutcome (request : Sent) : StateM (Stage ω) (Option ω) := do
  modify (begun request)
  let s ← get
  match s.outcomes with
  | [] => return none
  | (took, outcome) :: rest =>
    let s := { s with outcomes := rest }
    set (match took with
      | some t => s.advance t
      | none => s)
    return some outcome

def log (entry : LogEntry Number) : StateM (Stage ω) Unit :=
  modify fun s => { s with logs := s.logs ++ [entry] }

def world (call : (op : Operation) → op.Request → StateM (Stage ω) (Except Failure (Option op.Response))) :
    World (Stage ω) Number where
  call := call
  cancelled := isCancelled <$> get
  wait := wait
  now := (·.clock) <$> get
  draw := draw
  log := log

end Stage

inductive Reply
  | payload (j : Json)
  | nothing
  | failure (f : Failure)

def Reply.answer (op : Operation) : Reply → Except Failure (Option op.Response)
  | payload j =>
    match op.responseShape.read j with
    | .ok r => .ok (some r)
    | .error fs => .error (.invalidRecord fs)
  | nothing => .ok none
  | failure f => .error f

def reply (op : Operation) (request : op.Request) :
    StateM (Stage Reply) (Except Failure (Option op.Response)) := do
  match ← Stage.nextOutcome (.operation op (op.requestShape.display request)) with
  | none => return .error (.incident Stage.noOutcome)
  | some r => return r.answer op

def send (request : Http.Request) : StateM (Stage Http.Outcome) Http.Outcome := do
  match ← Stage.nextOutcome (.http request) with
  | none => return .crashed Stage.noOutcome
  | some outcome => return outcome

end LedgerQuery.Rehearsal
