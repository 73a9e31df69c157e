import LedgerQuery.Fetch.Operation

namespace LedgerQuery

inductive LogEntry (α : Type)
  | retrying (operation context : String) (last : Failure) (delay : α)
  | gaveUp (operation context : String) (retries : Nat) (elapsed : α) (last : Failure)
  | cancelled (operation context : String)

namespace LogEntry

variable {α : Type}

def level : LogEntry α → String
  | retrying _ _ _ _ => "WARNING"
  | gaveUp _ _ _ _ _ => "ERROR"
  | cancelled _ _ => "INFO"

def message : LogEntry Number → String
  | retrying op context last delay =>
    s!"{op} for {context} failed: {last.message}; retrying in {delay.twoPlaces}s"
  | gaveUp op context retries elapsed last =>
    s!"{op} for {context}: giving up after {retries} retries in {elapsed.twoPlaces}s: {last.message}"
  | cancelled op context => s!"{op} for {context} cancelled"

end LogEntry

/-- What a call meets outside, with states `σ` and times `α`. Nothing is assumed of it: each part may change the state
as it likes. -/
structure World (σ α : Type) where
  /-- Asks the node; a transport may also answer with nothing. -/
  call : (op : Operation) → op.Request → StateM σ (Except Failure (Option op.Response))
  cancelled : StateM σ Bool
  /-- Waits, and tells whether the call was cancelled meanwhile; a wait may also fail. -/
  wait : α → StateM σ (Except Incident Bool)
  now : StateM σ α
  draw : StateM σ α
  log : LogEntry α → StateM σ Unit

namespace World

def overlong : Incident := ⟨"OverflowError", "timestamp out of range for platform time_t"⟩

/-- Whether the nanoseconds of a time in seconds do not fit into 63 bits: there is no wait for so long. -/
def isOverlong (delay : Number) : Bool := .int 9223372036854775808 ≤ delay * .float 1e9

/-- What comes of a wait that nobody cuts short. -/
def undisturbed (delay : Number) : Except Incident Bool :=
  if isOverlong delay then .error overlong else .ok false

theorem undisturbed_of_overlong {delay : Number} (h : isOverlong delay = true) : undisturbed delay = .error overlong :=
  if_pos h

theorem undisturbed_of_short {delay : Number} (h : isOverlong delay = false) : undisturbed delay = .ok false := by
  simp [undisturbed, h]

theorem undisturbed_ne_cancelled (delay : Number) : undisturbed delay ≠ .ok true := by
  cases h : isOverlong delay with
  | true => simp [undisturbed_of_overlong h]
  | false => simp [undisturbed_of_short h]

end World

end LedgerQuery
