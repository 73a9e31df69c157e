import LedgerQuery.Proofs.Fetch.Accounts

namespace LedgerQuery

variable {σ α β : Type}

def LogEntry.map (f : α → β) : LogEntry α → LogEntry β
  | retrying op context last delay => .retrying op context last (f delay)
  | gaveUp op context retries elapsed last => .gaveUp op context retries (f elapsed) last
  | cancelled op context => .cancelled op context

def Event.map (f : α → β) : Event α → Event β
  | asked c => .asked c
  | called op request outcome => .called op request outcome
  | drew x => .drew (f x)
  | read t => .read (f t)
  | logged entry => .logged (entry.map f)
  | waited d answer => .waited (f d) answer

/-- What a call does with the world, but for the draws and times in it. -/
def History.untimed (h : History σ α) : List (Event Unit) := h.map fun m => m.event.map fun _ => ()

@[simp]
theorem History.untimed_append (h k : History σ α) : untimed (h ++ k) = untimed h ++ untimed k :=
  List.map_append

/-- What the node answers to each attempt, by the number of attempts before it. -/
abbrev Script := Nat → (op : Operation) → op.Request → Except Failure (Option op.Response)

/-- A world in which nobody cancels and the node answers by a script; `turn` counts the attempts. Its waits may
fail. -/
structure World.Scripted (w : World σ α) (script : Script) (turn : σ → Nat) : Prop where
  answers : ∀ {op request s}, (w.call op request s).1 = script (turn s) op request
  turns : ∀ m, w.Allows m → turn m.after = turn m.before + if m.event.isCall then 1 else 0
  uncancelled : ∀ {s}, (w.cancelled s).1 = false
  uninterrupted : ∀ {d s}, (w.wait d s).1 ≠ .ok true

namespace World.Scripted

variable {w : World σ α} {script : Script} {turn : σ → Nat} (scripted : w.Scripted script turn) (s : σ)
include scripted

theorem looks : ∃ looked, w.cancelled s = (false, looked) ∧ turn looked = turn s := by
  have hturn := scripted.turns ⟨s, .asked (w.cancelled s).1, (w.cancelled s).2⟩ rfl
  exact ⟨_, Prod.ext scripted.uncancelled rfl, hturn⟩

theorem calls (op : Operation) (request : op.Request) :
    ∃ answered, w.call op request s = (script (turn s) op request, answered) ∧ turn answered = turn s + 1 := by
  have hturn := scripted.turns ⟨s, .called op request (w.call op request s).1, (w.call op request s).2⟩ rfl
  exact ⟨_, Prod.ext scripted.answers rfl, hturn⟩

theorem attempts (op : Operation) (request : op.Request) :
    ∃ looked answered, w.cancelled s = (false, looked) ∧
      w.call op request looked = (script (turn s) op request, answered) ∧ turn answered = turn s + 1 := by
  obtain ⟨looked, hlooks, hlooked⟩ := scripted.looks s
  obtain ⟨answered, hcalls, hanswered⟩ := scripted.calls looked op request
  rw [hlooked] at hcalls hanswered
  exact ⟨looked, answered, hlooks, hcalls, hanswered⟩

theorem draws : ∃ x drawn, w.draw s = (x, drawn) ∧ turn drawn = turn s := by
  have hturn := scripted.turns ⟨s, .drew (w.draw s).1, (w.draw s).2⟩ rfl
  exact ⟨_, _, rfl, hturn⟩

theorem reads : ∃ now read, w.now s = (now, read) ∧ turn read = turn s := by
  have hturn := scripted.turns ⟨s, .read (w.now s).1, (w.now s).2⟩ rfl
  exact ⟨_, _, rfl, hturn⟩

theorem logs (entry : LogEntry α) : ∃ logged, w.log entry s = ((), logged) ∧ turn logged = turn s := by
  have hturn := scripted.turns ⟨s, .logged entry, (w.log entry s).2⟩ rfl
  exact ⟨_, rfl, hturn⟩

theorem waits (d : α) :
    (∃ waited, w.wait d s = (.ok false, waited) ∧ turn waited = turn s) ∨
      ∃ i waited, w.wait d s = (.error i, waited) := by
  have hturn := scripted.turns ⟨s, .waited d (w.wait d s).1, (w.wait d s).2⟩ rfl
  cases hanswer : (w.wait d s).1 with
  | error i => exact .inr ⟨i, _, Prod.ext hanswer rfl⟩
  | ok interrupted =>
      cases interrupted with
      | true => exact absurd hanswer scripted.uninterrupted
      | false => exact .inl ⟨_, Prod.ext hanswer rfl, hturn⟩

end World.Scripted

namespace Fetch

variable (script : Script) (op : Operation) (request : op.Request) (context : String)

/-- What a call does whose policy has issued `issued` delays and may issue `left` more, and how it ends, if no wait
fails. -/
def play (left issued turn : Nat) : List (Event Unit) × Except Failure op.Result :=
  let attempt : List (Event Unit) := [.asked false, .called op request (script turn op request)]
  match judge op (script turn op request) with
  | .ok v => (attempt, .ok v)
  | .error f =>
    if f.isTransient then
      match left with
      | 0 =>
        (attempt ++ [.read (), .logged (.gaveUp op.name context issued () f)],
          .error (.aborted .exhausted op.name context (some f)))
      | left + 1 =>
        (attempt ++ [.drew (), .logged (.retrying op.name context f ()), .waited () (.ok false)] ++
          (play left (issued + 1) (turn + 1)).1, (play left (issued + 1) (turn + 1)).2)
    else (attempt, .error f)

section

variable {script op request context} {left issued turn : Nat} {f : Failure}

theorem play_of_succeeds {v : op.Result} (h : Succeeds op (script turn op request) v) :
    play script op request context left issued turn =
      ([.asked false, .called op request (script turn op request)], .ok v) := by
  rw [play.eq_def, h.judge_eq]

theorem play_of_permanent (fails : Fails op (script turn op request) f) (permanent : f.isTransient = false) :
    play script op request context left issued turn =
      ([.asked false, .called op request (script turn op request)], .error f) := by
  rw [play.eq_def, fails.judge_eq]
  simp [permanent]

theorem play_zero (fails : Fails op (script turn op request) f) (transient : f.isTransient = true) :
    play script op request context 0 issued turn =
      ([.asked false, .called op request (script turn op request), .read (),
          .logged (.gaveUp op.name context issued () f)],
        .error (.aborted .exhausted op.name context (some f))) := by
  rw [play.eq_def, fails.judge_eq]
  simp [transient]

theorem play_succ (fails : Fails op (script turn op request) f) (transient : f.isTransient = true) :
    play script op request context (left + 1) issued turn =
      ([.asked false, .called op request (script turn op request), .drew (),
          .logged (.retrying op.name context f ()), .waited () (.ok false)] ++
          (play script op request context left (issued + 1) (turn + 1)).1,
        (play script op request context left (issued + 1) (turn + 1)).2) := by
  rw [play.eq_def, fails.judge_eq]
  simp [transient]

end

/-- A call does what is played, to the end or up to a wait that fails. -/
inductive Plays {op : Operation} (played : List (Event Unit) × Except Failure op.Result) :
    History σ α → Except Failure op.Result → Prop
  | whole {h : History σ α} (same : h.untimed = played.1) : Plays played h played.2
  | upTo {h : History σ α} {s s' : σ} {d : α} {i : Incident} {missed : List (Event Unit)}
      (same : h.untimed ++ .waited () (.ok false) :: missed = played.1) :
      Plays played (h ++ [⟨s, .waited d (.error i), s'⟩]) (.error (.incident i))

theorem Plays.of_unbroken {op : Operation} {played : List (Event Unit) × Except Failure op.Result} {h : History σ α}
    {r : Except Failure op.Result} (plays : Plays played h r) (unbroken : h.breaksOff = false) :
    h.untimed = played.1 ∧ r = played.2 := by
  cases plays with
  | whole same => exact ⟨same, rfl⟩
  | upTo =>
      rw [History.breaksOff_append] at unbroken
      exact absurd unbroken (by simp [History.breaksOff, Event.breaksOff])

theorem Plays.after {op : Operation} {events : List (Event Unit)} {rest : List (Event Unit) × Except Failure op.Result}
    {h k : History σ α} {r : Except Failure op.Result} (same : h.untimed = events) (plays : Plays rest k r) :
    Plays (events ++ rest.1, rest.2) (h ++ k) r := by
  cases plays with
  | whole hk => exact .whole (by rw [History.untimed_append, same, hk])
  | upTo hk =>
      rw [← List.append_assoc]
      exact .upTo (by rw [History.untimed_append, same, List.append_assoc, hk])

variable {script} [Add α] [Sub α] [Mul α] [LT α] [DecidableLT α] {w : World σ α} {turn : σ → Nat}

/-- An attempt ends the call as played unless it fails with something that may pass. -/
theorem attempt_plays (scripted : w.Scripted script turn) (left : Nat) (b : Backoff α) (last : Option Failure) (s : σ) :
    (∃ h r s', Course w op request context b last s h r s' ∧
      Plays (play script op request context left b.retries (turn s)) h r) ∨
    ∃ f looked answered, w.cancelled s = (false, looked) ∧
      w.call op request looked = (script (turn s) op request, answered) ∧ turn answered = turn s + 1 ∧
      Fails op (script (turn s) op request) f ∧ f.isTransient = true := by
  obtain ⟨looked, answered, hlooks, hcalls, hanswered⟩ := scripted.attempts s op request
  obtain ⟨v, hv⟩ | ⟨f, hf⟩ := succeeds_or_fails op (script (turn s) op request)
  · rw [play_of_succeeds hv]
    exact .inl ⟨_, _, _, .of_ending (.returned hlooks hcalls hv), .whole rfl⟩
  · cases htransient : f.isTransient with
    | false =>
        rw [play_of_permanent hf htransient]
        exact .inl ⟨_, _, _, .of_ending (.raised hlooks hcalls hf htransient), .whole rfl⟩
    | true => exact .inr ⟨f, looked, answered, hlooks, hcalls, hanswered, hf, htransient⟩

/-- In a scripted world, and without a bound on the time, a call plays the script: by induction on the delays
that its policy may still issue. -/
theorem course_plays (scripted : w.Scripted script turn) (left : Nat) {b : Backoff α}
    (free : b.limits.maxElapsed = none) (count : b.limits.maxRetries = .int (b.retries + left : Nat))
    (last : Option Failure) (s : σ) :
    ∃ h r s', Course w op request context b last s h r s' ∧
      Plays (play script op request context left b.retries (turn s)) h r := by
  induction left generalizing b last s with
  | zero =>
      obtain hplays | ⟨f, looked, answered, hlooks, hcalls, -, hf, htransient⟩ :=
        attempt_plays op request context scripted 0 b last s
      · exact hplays
      · have hspent : b.spent = true := by
          apply decide_eq_true
          rw [count]
          exact Number.int_le_int.mpr le_rfl
        rw [play_zero hf htransient]
        exact ⟨_, _, _, .of_ending (.exhausted hlooks hcalls hf htransient (.spent hspent) rfl rfl), .whole rfl⟩
  | succ left ih =>
      obtain hplays | ⟨f, looked, answered, hlooks, hcalls, hanswered, hf, htransient⟩ :=
        attempt_plays op request context scripted (left + 1) b last s
      · exact hplays
      · have hleft : b.spent = false := by
          apply decide_eq_false
          rw [count, Number.natCast_def, Number.int_le_int]
          omega
        obtain ⟨x, drawn, hdraws, hdrawn⟩ := scripted.draws answered
        obtain ⟨logged, hlogs, hlogged⟩ := scripted.logs drawn (.retrying op.name context f (b.delay x))
        rw [play_succ hf htransient]
        obtain ⟨t, hwaits, ht⟩ | ⟨i, t, hwaits⟩ := scripted.waits logged (b.delay x)
        · have hpassage : Passage w op request context b s f _ b.issued t :=
            .intro hlooks hcalls hf htransient (.unbounded hleft hdraws free) hlogs hwaits
          have hcount : b.issued.limits.maxRetries = .int (b.issued.retries + left : Nat) := by
            simp only [Backoff.issued, count]
            congr 2
            omega
          obtain ⟨k, r, s', hcourse, hplays⟩ := ih (b := b.issued) free hcount (some f) t
          rw [ht, hlogged, hdrawn, hanswered] at hplays
          exact ⟨_, r, s', .of_passage hpassage hcourse, hplays.after rfl⟩
        · have ends : Ending w op request context b last s .brokenOff _ _ t :=
            .brokenOff hlooks hcalls hf htransient (.unbounded hleft hdraws free) hlogs hwaits
          exact ⟨_, _, t, .of_ending ends, .upTo (h := [_, _, _, _]) rfl⟩

theorem retried_plays {w : World σ Number} (scripted : w.Scripted script turn) {settings : RetrySettings}
    (bounded : settings.Bounded) {bounds : Bounds} (free : (bounds.limits settings).maxElapsed = none) {n : Nat}
    (count : (bounds.limits settings).maxRetries = .int n) (s : σ) :
    ∃ r s' history, retried w.observed settings op request bounds (s, []) = some (r, (s', history)) ∧
      Plays (.read () :: (play script op request (op.describe request) n 0 (turn s)).1,
        (play script op request (op.describe request) n 0 (turn s)).2) history r := by
  have accepted : (bounds.limits settings).error? = none := by
    refine bounded.accepted (by simp [free]) ?_
    rw [count]
    exact Number.not_lt_of_le (Number.int_le_int.mpr (Int.natCast_nonneg n))
  obtain ⟨start, t, hreads, ht⟩ := scripted.reads s
  obtain ⟨h, r, s', hcourse, hplays⟩ := course_plays op request (op.describe request) scripted n
    (b := .begin (bounds.limits settings) start) free (by rw [Backoff.begin, count, Nat.zero_add]) none t
  rw [ht] at hplays
  have run := (retried_observed_iff accepted).mpr ⟨start, t, h, hreads, (List.nil_append _).symm, hcourse⟩
  have hread : History.untimed [⟨s, .read start, t⟩] = [.read ()] := rfl
  exact ⟨r, s', _, run, hplays.after hread⟩

def paced (time draw : Number) : World Nat Number :=
  { recovering with now := pure time, draw := pure draw }

theorem paced_scripted (time draw : Number) :
    (paced time draw).Scripted (fun turn op request => (recovering.call op request turn).1) id where
  answers := rfl
  turns := by
    rintro ⟨s, event, s'⟩ allows
    cases event with
    | called op request outcome =>
        obtain rfl : (recovering.call op request s).2 = s' := congrArg Prod.snd allows
        cases op <;> rfl
    | _ =>
        obtain rfl : s = s' := congrArg Prod.snd allows
        rfl
  uncancelled := rfl
  uninterrupted := World.undisturbed_ne_cancelled _

theorem paced_run {time draw : Number} {settings : RetrySettings} {bounds : Bounds} {b : Backoff Number}
    (hb : b = .begin (bounds.limits settings) time) (accepted : (bounds.limits settings).error? = none)
    (left : b.spent = false) (free : b.limits.maxElapsed = none)
    (short : World.isOverlong (b.delay draw) = false) :
    ∃ history, retried (paced time draw).observed settings .networkList ⟨none⟩ bounds (0, []) =
        some (.ok [], (2, history)) ∧
      history.breaksOff = false ∧ history.calls.length = 2 := by
  let f : Failure := .transport ⟨some 503, .unstated⟩
  have fails : Passage (paced time draw) .networkList ⟨none⟩ "node" b 0 f _ b.issued 1 :=
    .intro rfl rfl (.raised _) rfl (.unbounded left rfl free) rfl (recovering_waits short 1)
  have returns : Course (paced time draw) .networkList ⟨none⟩ "node" b none 0 _ (.ok []) 2 :=
    .of_passage fails (.of_ending (.returned rfl rfl (.intro rfl rfl)))
  subst hb
  exact ⟨_, (retried_observed_iff accepted).mpr ⟨_, _, _, rfl, (List.nil_append _).symm, returns⟩, rfl, rfl⟩

def leisurely : RetrySettings := ⟨none, 0, 3600, 1, 0, 86400⟩

theorem patient_bounded : patient.Bounded := { RetrySettings.default_bounded with maxElapsed := nofun }

theorem patient_run : ∃ history,
    retried (paced (.int 0) (.float 0.5)).observed patient .networkList ⟨none⟩ ⟨none, none⟩ (0, []) =
        some (.ok [], (2, history)) ∧
      history.breaksOff = false ∧ history.calls.length = 2 :=
  paced_run rfl patient_bounded.limits_accepted (by decide +kernel) rfl (by decide +kernel)

end Fetch

end LedgerQuery
