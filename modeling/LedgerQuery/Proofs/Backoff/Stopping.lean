import LedgerQuery.Proofs.Backoff.Interval

namespace LedgerQuery

namespace Backoff

/-- How many delays a policy has issued: as many as its answers hold, and no more than its limits allow. -/
structure Counted {α : Type} (l : Limits α) (answers : List (Option α)) (b : Backoff α) : Prop where
  limits : b.limits = l
  retries : b.retries = answers.reduceOption.length
  bounded : ∀ n : Int, l.maxRetries = .int n → (b.retries : Int) ≤ n

section

variable {α : Type} {l : Limits α} {b : Backoff α} {n : Int}

theorem spent_iff : b.spent = true ↔ b.limits.maxRetries ≤ (b.retries : Number) := decide_eq_true_iff

theorem spent_iff_of_int (hn : b.limits.maxRetries = .int n) : b.spent = true ↔ n ≤ b.retries := by
  rw [spent_iff, hn, Number.natCast_def, Number.int_le_int]

theorem begin_counted [LT α] [DecidableLT α] (sound : ¬l.maxRetries < .int 0) (start : α) :
    Counted l [] (begin l start) where
  limits := rfl
  retries := rfl
  bounded n hn := by
    rw [hn, Number.lt_iff_of_value (Number.value_int n) (Number.value_int 0), Rat.intCast_lt_intCast] at sound
    exact not_lt.mp sound

theorem Counted.refused {answers : List (Option α)} (counted : Counted l answers b) :
    Counted l (answers ++ [none]) b where
  limits := counted.limits
  retries := by simp [List.reduceOption_append, counted.retries]
  bounded := counted.bounded

theorem Counted.issued [Mul α] [LT α] [DecidableLT α] {answers : List (Option α)} {d : α}
    (counted : Counted l answers b) (left : b.spent = false) : Counted l (answers ++ [some d]) b.issued where
  limits := counted.limits
  retries := by simp [List.reduceOption_append, Backoff.issued, counted.retries]
  bounded n hn := by
    have hleft : ¬n ≤ b.retries := by
      rw [← spent_iff_of_int (counted.limits ▸ hn), left]
      exact Bool.false_ne_true
    simp only [Backoff.issued]
    omega

end

section

variable {σ α : Type} [Add α] [Sub α] [Mul α] [LT α] [DecidableLT α]
  {draw now : StateM σ α} {l : Limits α} {b b' b'' : Backoff α} {s s' s'' : σ} {n : Int}

/-- Questions asked one after the other. Before each the world passes from the state in which the last has left it
to another. -/
inductive Series (passes : σ → σ → Prop) (draw now : StateM σ α) :
    Backoff α → σ → List (Option α) → Backoff α → σ → Prop
  | nil (b : Backoff α) (s : σ) : Series passes draw now b s [] b s
  | cons {b b' b'' : Backoff α} {s r s' s'' : σ} {answer : Option α} {answers : List (Option α)}
      (moves : passes s r) (question : b.next draw now r = ((answer, b'), s'))
      (rest : Series passes draw now b' s' answers b'' s'') :
      Series passes draw now b s (answer :: answers) b'' s''

theorem next_eq_pure (spent : b.spent = true) {m : Type → Type} [Monad m] (draw now : m α) :
    b.next draw now = pure (none, b) := by
  rw [next, if_pos spent]

theorem refused_eq (refused : b.next draw now s = ((none, b'), s')) : b' = b := by
  obtain ⟨-, rfl⟩ | ⟨hanswer, -⟩ := next_cases refused
  · rfl
  · cases hanswer

theorem issued_eq {d : α} (issues : b.next draw now s = ((some d, b'), s')) : b' = b.issued ∧ b.spent = false := by
  obtain ⟨hanswer, -⟩ | ⟨-, rfl⟩ := next_cases issues
  · cases hanswer
  · cases spent : b.spent with
    | false => exact ⟨rfl, rfl⟩
    | true => cases issues.symm.trans (next_of_spent spent)

theorem Asked.counted {start : α} {answers : List (Option α)} (sound : ¬l.maxRetries < .int 0)
    (asked : Asked draw now (begin l start) answers b) : Counted l answers b := by
  induction asked with
  | nil => exact begin_counted sound start
  | @next answers b b' answer s s' before question ih =>
      cases answer with
      | none =>
          obtain rfl := refused_eq question
          exact ih.refused
      | some d =>
          obtain ⟨rfl, hleft⟩ := issued_eq question
          exact ih.issued hleft

theorem Asked.of_spent {later : List (Option α)} (asked : Asked draw now b later b') (spent : b.spent = true) :
    b' = b ∧ ∀ answer ∈ later, answer = none := by
  induction asked with
  | nil => exact ⟨rfl, fun answer hanswer => nomatch hanswer⟩
  | @next answers b' b'' answer s s' before question ih =>
      obtain ⟨rfl, hnone⟩ := ih
      cases question.symm.trans (next_of_spent spent)
      refine ⟨rfl, fun answer hanswer => ?_⟩
      obtain hbefore | hlast := List.mem_append.mp hanswer
      · exact hnone answer hbefore
      · exact List.mem_singleton.mp hlast

theorem delays_of_refused (refused : b.next draw now s = ((none, b'), s')) (fuel : Nat) :
    b.delays draw now (fuel + 1) s = (([], b'), s') := by
  simp only [delays, bind, StateT.bind, refused]
  rfl

theorem delays_of_issued {d : α} {ds : List α} {fuel : Nat} (issues : b.next draw now s = ((some d, b'), s'))
    (rest : b'.delays draw now fuel s' = ((ds, b''), s'')) :
    b.delays draw now (fuel + 1) s = ((d :: ds, b''), s'') := by
  simp only [delays, bind, StateT.bind, issues, rest]
  rfl

theorem delays_series {left fuel : Nat} (hn : b.limits.maxRetries = .int n) (hleft : n ≤ b.retries + left)
    (enough : left ≤ fuel) (s : σ) :
    ∃ ds b' s', b.delays draw now (fuel + 1) s = ((ds, b'), s') ∧
      Series Eq draw now b s (ds.map some ++ [none]) b' s' ∧ ds.length ≤ left := by
  induction left generalizing b s fuel with
  | zero =>
      have hspent : b.spent = true := (spent_iff_of_int hn).mpr (by omega)
      have hrefused : b.next draw now s = ((none, b), s) := next_of_spent hspent
      exact ⟨[], b, s, delays_of_refused hrefused fuel, .cons rfl hrefused (.nil b s), le_rfl⟩
  | succ left ih =>
      obtain ⟨fuel, rfl⟩ : ∃ k, fuel = k + 1 := ⟨fuel - 1, by omega⟩
      rcases hquestion : b.next draw now s with ⟨⟨answer, b'⟩, s'⟩
      cases answer with
      | none => exact ⟨[], b', s', delays_of_refused hquestion _, .cons rfl hquestion (.nil b' s'), Nat.zero_le _⟩
      | some d =>
          obtain ⟨rfl, -⟩ := issued_eq hquestion
          have hless : n ≤ b.issued.retries + left := by
            simp only [issued]
            omega
          have hissued : b.issued.limits.maxRetries = .int n := hn
          obtain ⟨ds, b'', s'', hdelays, hseries, hlength⟩ := ih hissued hless (Nat.le_of_succ_le_succ enough) s'
          exact ⟨d :: ds, b'', s'', delays_of_issued hquestion hdelays, .cons rfl hquestion hseries,
            Nat.succ_le_succ hlength⟩

theorem allowance_int (n : Int) : allowance (.int n) = n.toNat := by
  rw [allowance, Number.value_int]
  simp only [Rat.ceil_intCast]

/-- What holds of a policy after any questions: the delays are counted, a refusal changes nothing, a policy whose
delays are used up refuses for good without a draw, and iterating it gives the delays of the questions up to the
first refusal. -/
structure Disciplined (draw now : StateM σ α) (l : Limits α) (answers : List (Option α)) (b : Backoff α) : Prop where
  retries : b.retries = answers.reduceOption.length
  bounded : ∀ n : Int, l.maxRetries = .int n → (b.retries : Int) ≤ n
  refusal : ∀ s b' s', b.next draw now s = ((none, b'), s') → b' = b
  undrawn : l.maxRetries ≤ (b.retries : Number) →
    ∀ {m : Type → Type} [Monad m] (draw now : m α), b.next draw now = pure (none, b)
  final : l.maxRetries ≤ (b.retries : Number) →
    ∀ later b', Asked draw now b later b' → b' = b ∧ ∀ answer ∈ later, answer = none
  iteration : ∀ n : Int, l.maxRetries = .int n → ∀ s, ∃ ds b' s', b.drain draw now s = ((ds, b'), s') ∧
    Series Eq draw now b s (ds.map some ++ [none]) b' s' ∧ (ds.length : Int) ≤ n - b.retries

theorem Counted.disciplined {answers : List (Option α)} (counted : Counted l answers b) (draw now : StateM σ α) :
    Disciplined draw now l answers b := by
  obtain ⟨rfl, hretries, hbounded⟩ := counted
  refine ⟨hretries, hbounded, fun s b' s' => refused_eq,
    fun h _ _ draw now => next_eq_pure (spent_iff.mpr h) draw now,
    fun h later b' asked => asked.of_spent (spent_iff.mpr h), fun n hn s => ?_⟩
  have hle := hbounded n hn
  have hleft : n ≤ b.retries + (n - b.retries).toNat := by omega
  have henough : (n - b.retries).toNat ≤ n.toNat := by omega
  obtain ⟨ds, b', s', hdelays, hseries, hlength⟩ := delays_series hn hleft henough s
  refine ⟨ds, b', s', ?_, hseries, by omega⟩
  rw [drain, hn, allowance_int]
  exact hdelays

end

section

variable {σ : Type} {passes : σ → σ → Prop} {draw now : StateM σ Rat} {b b' : Backoff Rat} {s s' r : σ}

/-- A clock that never goes back: not while the world passes on, nor over a draw or a look at it. -/
structure Forward (passes : σ → σ → Prop) (draw now : StateM σ Rat) : Prop where
  pass : ∀ s r, passes s r → (now s).1 ≤ (now r).1
  draw : ∀ s, (now s).1 ≤ (now (draw s).2).1
  look : ∀ s, (now s).1 ≤ (now (now s).2).1

/-- A policy without jitter whose interval no longer fits, by the count or by the clock. -/
def Over (now : StateM σ Rat) (b : Backoff Rat) (s : σ) : Prop :=
  b.spent = true ∨ ∃ E, b.limits.maxElapsed = some E ∧ E < b.elapsed (now s).1 + b.interval

theorem Over.later (ended : Over now b s) (later : (now s).1 ≤ (now r).1) : Over now b r := by
  obtain hspent | ⟨E, hE, hlate⟩ := ended
  · exact .inl hspent
  · refine .inr ⟨E, hE, hlate.trans_le ?_⟩
    rw [elapsed, elapsed]
    linarith

theorem delay_of_fixed (fixed : b.limits.randomizationFactor = 0) (x : Rat) : b.delay x = b.interval := by
  rw [delay, fixed]
  ring

theorem over_of_refused (forward : Forward passes draw now) (fixed : b.limits.randomizationFactor = 0)
    (refused : b.next draw now s = ((none, b'), s')) : Over now b s' := by
  cases spent : b.spent with
  | true => exact .inl spent
  | false =>
      cases hE : b.limits.maxElapsed with
      | none => cases refused.symm.trans (next_of_unbounded spent rfl hE)
      | some E =>
          have bounded : b.limits.maxElapsed.isSome = true := by rw [hE]; rfl
          cases late : b.overruns (now (draw s).2).1 (b.delay (draw s).1) with
          | false => cases refused.symm.trans (next_of_fits spent rfl bounded rfl late)
          | true =>
              -- It was late when the clock was looked at, which is before `s'`.
              cases refused.symm.trans (next_of_late spent rfl bounded rfl late)
              have hlate : E < b.elapsed (now (draw s).2).1 + b.interval := by
                simpa only [overruns, hE, delay_of_fixed fixed, decide_eq_true_eq] using late
              exact Over.later (.inr ⟨E, hE, hlate⟩) (forward.look _)

theorem Over.refuses (forward : Forward passes draw now) (fixed : b.limits.randomizationFactor = 0)
    (ended : Over now b s) : ∃ r, b.next draw now s = ((none, b), r) := by
  cases spent : b.spent with
  | true => exact ⟨s, next_of_spent spent⟩
  | false =>
      have hdrawn := ended.later (forward.draw s)
      rw [Over, spent] at hdrawn
      obtain hspent | ⟨E, hE, hlate⟩ := hdrawn
      · cases hspent
      · refine ⟨_, next_of_late spent rfl (by rw [hE]; rfl) rfl ?_⟩
        simpa only [overruns, hE, delay_of_fixed fixed, decide_eq_true_eq] using hlate

theorem Series.of_over {answers : List (Option Rat)} (forward : Forward passes draw now)
    (fixed : b.limits.randomizationFactor = 0) (series : Series passes draw now b s answers b' s')
    (ended : Over now b s) : b' = b ∧ ∀ answer ∈ answers, answer = none := by
  -- A refusal leaves the policy as it is and the clock goes on, so the next question also finds it over.
  induction series with
  | nil => exact ⟨rfl, fun answer hanswer => nomatch hanswer⟩
  | @cons b b₁ b' s r s₁ s' answer answers moves question rest ih =>
      obtain ⟨t, hrefused⟩ := (ended.later (forward.pass s r moves)).refuses forward fixed
      cases question.symm.trans hrefused
      obtain ⟨rfl, hnone⟩ := ih fixed (over_of_refused forward fixed question)
      exact ⟨rfl, List.forall_mem_cons.mpr ⟨rfl, hnone⟩⟩

end

/-- A policy that makes sense stops in order, whatever its clock shows and whatever it draws. In exact arithmetic,
without jitter and under a clock that never goes back, a refusal of any kind is followed by refusals only. -/
theorem stops_in_order {l : Limits Number} (accepted : l.error? = none) :
    (∀ {σ : Type} (draw now : StateM σ Number) (start : Number) (answers : List (Option Number)) (b : Backoff Number),
      Asked draw now (begin l start) answers b → Disciplined draw now l answers b) ∧
    ∀ q : Limits Rat, l.Denotes q → q.randomizationFactor = 0 →
      ∀ {σ : Type} (passes : σ → σ → Prop) (draw now : StateM σ Rat), Forward passes draw now →
        ∀ (start : Rat) (answers : List (Option Rat)) (b b' : Backoff Rat) (s s' : σ),
          Asked draw now (begin q start) answers b → b.next draw now s = ((none, b'), s') →
            ∀ later b'' s'', Series passes draw now b' s' later b'' s'' →
              b'' = b ∧ ∀ answer ∈ later, answer = none := by
  have sensible := Limits.error?_eq_none.mp accepted
  refine ⟨fun draw now start answers b asked => (asked.counted sensible.maxRetries).disciplined draw now, ?_⟩
  intro q exact fixed σ passes draw now forward start answers b b' s s' asked refused later b'' s'' series
  have hlimits := (asked.counted (exact.sensible sensible).maxRetries).limits
  have hfixed : b.limits.randomizationFactor = 0 := by rw [hlimits, fixed]
  obtain rfl := refused_eq refused
  exact series.of_over forward hfixed (over_of_refused forward hfixed refused)

def always : StateM Number Number := pure (.int 1)

theorem shown_forward : Forward (· ≤ ·) highest shown := ⟨fun _ _ h => h, fun _ => le_rfl, fun _ => le_rfl⟩

/-- Two delays of at most ten seconds in all. The question at nine comes too late for the second delay, the one at
eight does not; on a clock that stays at nine or later it is too late for good. -/
theorem two_delays_stop : ∃ (l : Limits Number) (q : Limits Rat) (b : Backoff Number) (c : Backoff Rat),
    l.error? = none ∧ l.Denotes q ∧
      Disciplined always get l [some (.int 1), none, some (.int 2)] b ∧ b.next always get = pure (none, b) ∧
        Asked highest shown (begin q 0) [some 1] c ∧ c.next highest shown 9 = ((none, c), 9) ∧
          ∀ later c' s', Series (· ≤ ·) highest shown c 9 later c' s' → ∀ answer ∈ later, answer = none := by
  let l : Limits Number := ⟨some (.int 10), .int 2, .int 1, .int 2, .int 0, .int 3⟩
  let q : Limits Rat := ⟨some 10, .int 2, 1, 2, 0, 3⟩
  have accepted : l.error? = none := Option.isNone_iff_eq_none.mp (by decide +kernel)
  have exact : l.Denotes q := ⟨rfl, rfl, rfl, rfl, rfl, rfl⟩
  obtain ⟨disciplined, permanent⟩ := stops_in_order accepted
  let b : Backoff Number := begin l (.int 0)
  have asked :
      Asked always get b [some (b.delay (.int 1)), none, some (b.issued.delay (.int 1))] b.issued.issued := by
    have first : b.next always get (.int 0) = _ := next_of_fits (by decide +kernel) rfl rfl rfl (by decide +kernel)
    have late : b.issued.next always get (.int 9) = _ :=
      next_of_late (by decide +kernel) rfl rfl rfl (by decide +kernel)
    have second : b.issued.next always get (.int 8) = _ :=
      next_of_fits (by decide +kernel) rfl rfl rfl (by decide +kernel)
    exact ((Asked.nil.next first).next late).next second
  have hone : b.delay (.int 1) = .int 1 := by decide +kernel
  have htwo : b.issued.delay (.int 1) = .int 2 := by decide +kernel
  rw [hone, htwo] at asked
  have hdone := disciplined always get (.int 0) _ _ asked
  let c : Backoff Rat := begin q 0
  have begun : Asked highest shown c [some (c.delay 1)] c.issued := by
    have first : c.next highest shown 0 = _ := next_of_fits (by decide +kernel) rfl rfl rfl (by decide +kernel)
    exact Asked.nil.next first
  have hdelay : c.delay 1 = 1 := by decide +kernel
  rw [hdelay] at begun
  have late : c.issued.next highest shown 9 = ((none, c.issued), 9) :=
    next_of_late (by decide +kernel) rfl rfl rfl (by decide +kernel)
  refine ⟨l, q, _, _, accepted, exact, hdone, hdone.undrawn (by decide +kernel) always get, begun, late, ?_⟩
  intro later c' s' series
  exact (permanent q exact rfl _ _ _ shown_forward 0 _ _ _ _ _ begun late later c' s' series).2

end Backoff

end LedgerQuery
