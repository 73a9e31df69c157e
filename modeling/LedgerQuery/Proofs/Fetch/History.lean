import LedgerQuery.Fetch.Call

namespace LedgerQuery

inductive Event (α : Type)
  | asked (cancelled : Bool)
  | called (op : Operation) (request : op.Request) (outcome : Except Failure (Option op.Response))
  | drew (x : α)
  | read (time : α)
  | logged (entry : LogEntry α)
  | waited (delay : α) (answer : Except Incident Bool)

namespace Event

variable {α : Type}

def isCall : Event α → Bool
  | called _ _ _ => true
  | _ => false

def isWait : Event α → Bool
  | waited _ _ => true
  | _ => false

def breaksOff : Event α → Bool
  | waited _ (.error _) => true
  | _ => false

/-- What the event tells of the wish to cancel, if it tells of it. -/
def tells : Event α → Option Bool
  | asked c => some c
  | waited _ (.ok c) => some c
  | _ => none

end Event

structure Step (σ α : Type) where
  before : σ
  event : Event α
  after : σ

abbrev History (σ α : Type) := List (Step σ α)

namespace History

variable {σ α : Type}

def calls (h : History σ α) : History σ α := h.filter (·.event.isCall)

def waits (h : History σ α) : History σ α := h.filter (·.event.isWait)

def breaksOff (h : History σ α) : Bool := h.any (·.event.breaksOff)

@[simp]
theorem calls_append (h k : History σ α) : calls (h ++ k) = calls h ++ calls k := List.filter_append ..

@[simp]
theorem waits_append (h k : History σ α) : waits (h ++ k) = waits h ++ waits k := List.filter_append ..

@[simp]
theorem breaksOff_append (h k : History σ α) : breaksOff (h ++ k) = (breaksOff h || breaksOff k) := List.any_append

theorem last_call {h : History σ α} (hcalls : calls h ≠ []) : ∃ earlier attempt between,
    h = earlier ++ attempt :: between ∧ attempt.event.isCall = true ∧ calls between = [] := by
  induction h with
  | nil => exact absurd rfl hcalls
  | cons m h ih =>
      by_cases hlater : calls h = []
      · cases hm : m.event.isCall with
        | true => exact ⟨[], m, h, rfl, hm, hlater⟩
        | false =>
            rw [calls, List.filter_cons_of_neg (by simp [hm])] at hcalls
            exact absurd hlater hcalls
      · obtain ⟨earlier, attempt, between, rfl, hattempt, hbetween⟩ := ih hlater
        exact ⟨m :: earlier, attempt, between, rfl, hattempt, hbetween⟩

theorem calls_of_split {past rest : History σ α} {m : Step σ α} (h : calls (past ++ m :: rest) = []) :
    calls rest = [] := by
  rw [calls, List.filter_eq_nil_iff] at h ⊢
  intro n hn
  exact h n (by simp [hn])

theorem waits_of_split {past rest : History σ α} {m : Step σ α} (h : waits (past ++ m :: rest) = []) :
    waits rest = [] := by
  rw [waits, List.filter_eq_nil_iff] at h ⊢
  intro n hn
  exact h n (by simp [hn])

end History

namespace World

variable {σ α β : Type}

def noted (act : StateM σ β) (event : β → Event α) : StateM (σ × History σ α) β := fun (s, past) =>
  ((act s).1, ((act s).2, past ++ [⟨s, event (act s).1, (act s).2⟩]))

/-- The world, which behaves as before, with a history of all that is done with it. -/
def observed (w : World σ α) : World (σ × History σ α) α where
  call op request := noted (w.call op request) (.called op request)
  cancelled := noted w.cancelled .asked
  wait d := noted (w.wait d) (.waited d)
  now := noted w.now .read
  draw := noted w.draw .drew
  log entry := noted (w.log entry) fun _ => .logged entry

section

variable (w : World σ α) (s : σ) (past : History σ α)

@[simp]
theorem observed_call (op : Operation) (request : op.Request) :
    w.observed.call op request (s, past) = ((w.call op request s).1, ((w.call op request s).2,
      past ++ [⟨s, .called op request (w.call op request s).1, (w.call op request s).2⟩])) := rfl

@[simp]
theorem observed_cancelled :
    w.observed.cancelled (s, past) = ((w.cancelled s).1, ((w.cancelled s).2,
      past ++ [⟨s, .asked (w.cancelled s).1, (w.cancelled s).2⟩])) := rfl

@[simp]
theorem observed_wait (d : α) :
    w.observed.wait d (s, past) = ((w.wait d s).1, ((w.wait d s).2,
      past ++ [⟨s, .waited d (w.wait d s).1, (w.wait d s).2⟩])) := rfl

@[simp]
theorem observed_now :
    w.observed.now (s, past) = ((w.now s).1, ((w.now s).2,
      past ++ [⟨s, .read (w.now s).1, (w.now s).2⟩])) := rfl

@[simp]
theorem observed_draw :
    w.observed.draw (s, past) = ((w.draw s).1, ((w.draw s).2,
      past ++ [⟨s, .drew (w.draw s).1, (w.draw s).2⟩])) := rfl

@[simp]
theorem observed_log (entry : LogEntry α) :
    w.observed.log entry (s, past) = ((), ((w.log entry s).2,
      past ++ [⟨s, .logged entry, (w.log entry s).2⟩])) := rfl

end

/-- Whether the world takes this step in the state before it. -/
def Allows (w : World σ α) (m : Step σ α) : Prop :=
  match m.event with
  | .asked c => w.cancelled m.before = (c, m.after)
  | .called op request outcome => w.call op request m.before = (outcome, m.after)
  | .drew x => w.draw m.before = (x, m.after)
  | .read t => w.now m.before = (t, m.after)
  | .logged entry => w.log entry m.before = ((), m.after)
  | .waited d answer => w.wait d m.before = (answer, m.after)

inductive Unfolds (w : World σ α) : σ → History σ α → σ → Prop
  | nil (s : σ) : Unfolds w s [] s
  | cons {m : Step σ α} {h : History σ α} {s' : σ} (here : w.Allows m) (rest : Unfolds w m.after h s') :
      Unfolds w m.before (m :: h) s'

theorem unfolds_append {w : World σ α} {s s' : σ} {h k : History σ α} :
    w.Unfolds s (h ++ k) s' ↔ ∃ t, w.Unfolds s h t ∧ w.Unfolds t k s' := by
  induction h generalizing s with
  | nil =>
      constructor
      · intro hk
        exact ⟨s, .nil s, hk⟩
      · rintro ⟨t, hn, hk⟩
        cases hn
        exact hk
  | cons m h ih =>
      constructor
      · intro hu
        cases hu with
        | cons here rest =>
            obtain ⟨t, hh, hk⟩ := ih.mp rest
            exact ⟨t, .cons here hh, hk⟩
      · rintro ⟨t, hu, hk⟩
        cases hu with
        | cons here rest => exact .cons here (ih.mpr ⟨t, rest, hk⟩)

theorem Unfolds.of_split {w : World σ α} {s s' : σ} {past rest : History σ α} {m : Step σ α}
    (hu : w.Unfolds s (past ++ m :: rest) s') : w.Unfolds m.after rest s' := by
  obtain ⟨t, -, ht⟩ := unfolds_append.mp hu
  cases ht with
  | cons _ rest => exact rest

theorem Unfolds.lasts {w : World σ α} {P : σ → Prop} (stays : ∀ m, w.Allows m → P m.before → P m.after)
    {s s' : σ} {h : History σ α} (hu : w.Unfolds s h s') (hs : P s) :
    P s' := by
  induction hu with
  | nil => exact hs
  | cons here _ ih => exact ih (stays _ here hs)

end World

end LedgerQuery
