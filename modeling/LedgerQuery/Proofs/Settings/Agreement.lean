import LedgerQuery.Proofs.Record.Equality
import LedgerQuery.Proofs.Shape.Lossless
import LedgerQuery.Proofs.Settings.Retry

namespace LedgerQuery

open Fetch

namespace Value

theorem not_lt_iff {a b : Value} (hb : b ≠ .nan) : ¬a.compare? b = some .lt ↔ b.AtMost a ∨ a = .nan := by
  cases a with
  | finite p =>
      cases b with
      | finite q => rw [compare?_eq_lt_finite, not_lt, atMost_finite]; simp
      | _ => simp_all [compare?]
  | _ => cases b <;> simp_all [compare?]

end Value

theorem Number.not_lt_int {a : Number} {n : Int} : ¬a < .int n ↔ Number.int n ≤ a ∨ a.value = .nan := by
  have hn : (Number.int n).value ≠ .nan := nofun
  exact Value.not_lt_iff hn

theorem Number.value_ne_nan_of_le {a b : Number} (h : a ≤ b) : b.value ≠ .nan := by
  intro hnan
  rw [le_iff, hnan] at h
  exact Value.not_atMost_nan _ h

section

variable {α β ρ : Type} {P Q : α → Prop}

namespace Shape

/-- What a value shows in full is read back as the value if it has the property, and is not read else. -/
def Rereads (s : Shape α) (P : α → Prop) : Prop := ∀ a b, s.read (s.json a) = .ok b ↔ b = a ∧ P a

theorem float_rereads : float.Rereads fun _ => True := by
  intro x y
  have hread : float.read (float.json x) = .ok x := rfl
  rw [hread, Except.ok.injEq, eq_comm, and_true]

theorem int_rereads : int.Rereads fun _ => True := by
  intro m n
  have hread : int.read (int.json m) = .ok m := rfl
  rw [hread, Except.ok.injEq, eq_comm, and_true]

variable {s : Shape α}

theorem Rereads.checked (h : s.Rereads P) (p : α → Bool) (kind : FaultKind) :
    (s.checked (holds p kind)).Rereads fun a => P a ∧ p a = true := by
  intro a b
  rw [checked_holds_read, show (s.checked (holds p kind)).json a = s.json a from rfl, h a b]
  constructor
  · rintro ⟨⟨rfl, ha⟩, hp⟩
    exact ⟨rfl, ha, hp⟩
  · rintro ⟨rfl, ha, hp⟩
    exact ⟨⟨rfl, ha⟩, hp⟩

theorem Rereads.atLeast [LE α] [DecidableLE α] (h : s.Rereads P) (bound : α) :
    (s.atLeast bound).Rereads fun a => P a ∧ bound ≤ a := by
  simpa only [Shape.atLeast, decide_eq_true_eq] using h.checked (fun a => decide (bound ≤ a)) .greaterThanEqual

theorem Rereads.atMost [LE α] [DecidableLE α] (h : s.Rereads P) (bound : α) :
    (s.atMost bound).Rereads fun a => P a ∧ a ≤ bound := by
  simpa only [Shape.atMost, decide_eq_true_eq] using h.checked (fun a => decide (a ≤ bound)) .lessThanEqual

theorem Rereads.optional (h : s.Rereads P) (present : ∀ a, Source.layer (s.json a) ≠ .null) :
    s.optional.Rereads fun o => ∀ a ∈ o, P a := by
  intro o b
  cases o with
  | none =>
      rw [show s.optional.json none = .null from rfl, optional_read_of_null rfl, Except.ok.injEq, eq_comm]
      simp
  | some a =>
      rw [show s.optional.json (some a) = s.json a from rfl, optional_read_of_ne (present a)]
      constructor
      · intro hb
        cases hread : s.read (s.json a) with
        | error fs =>
            rw [hread] at hb
            cases hb
        | ok c =>
            rw [hread] at hb
            cases hb
            obtain ⟨rfl, ha⟩ := (h a c).mp hread
            exact ⟨rfl, fun _ hx => Option.some_inj.mp hx ▸ ha⟩
      · rintro ⟨rfl, ha⟩
        rw [(h a a).mpr ⟨rfl, ha a rfl⟩]
        rfl

end Shape

namespace Fields

theorem withDefault_of_found {σ : Type} [Source σ] {name : String} {s : Shape α} {value a : α} {get : ρ → α}
    {entries : List (MapKey × σ)} {x : σ} (found : valueUnder? name entries = some x) :
    (withDefault name s value get).read entries = .ok a ↔ s.read x = .ok a := by
  simp only [withDefault, found, Reading.under_eq_ok]

def Rereads (f : Fields ρ α) (get : ρ → α) (P : ρ → Prop) : Prop :=
  ∀ (r : ρ) (ms : List (String × Json)), (∀ e ∈ f.display r, lookup? e.1 ms = some e.2.full) →
    ∀ a, f.read (ms.map fun (k, x) => (MapKey.text k, x)) = .ok a ↔ a = get r ∧ P r

theorem withDefault_rereads {name : String} {s : Shape α} {value : α} {get : ρ → α} (h : s.Rereads P) :
    (withDefault name s value get).Rereads get fun r => P (get r) := by
  intro r ms found a
  have hfound := found (name, s.display (get r)) (List.mem_singleton_self _)
  rw [← valueUnder?_json] at hfound
  rw [withDefault_of_found hfound]
  exact h (get r) a

variable {P Q : ρ → Prop}

theorem Rereads.map {f : Fields ρ α} {get : ρ → α} (h : f.Rereads get P) (g : α → β) :
    (g <$> f).Rereads (fun r => g (get r)) P := by
  intro r ms found b
  rw [map_read]
  constructor
  · rintro ⟨a, ha, rfl⟩
    obtain ⟨rfl, hr⟩ := (h r ms found a).mp ha
    exact ⟨rfl, hr⟩
  · rintro ⟨rfl, hr⟩
    exact ⟨_, (h r ms found _).mpr ⟨rfl, hr⟩, rfl⟩

theorem Rereads.seq {f : Fields ρ (α → β)} {x : Fields ρ α} {g : ρ → α → β} {get : ρ → α} (hf : f.Rereads g P)
    (hx : x.Rereads get Q) : (f <*> x).Rereads (fun r => g r (get r)) fun r => P r ∧ Q r := by
  intro r ms found b
  have hffound := hf r ms fun e he => found e (List.mem_append_left _ he)
  have hxfound := hx r ms fun e he => found e (List.mem_append_right _ he)
  rw [seq_read]
  constructor
  · rintro ⟨k, a, hk, ha, rfl⟩
    obtain ⟨rfl, hp⟩ := (hffound k).mp hk
    obtain ⟨rfl, hq⟩ := (hxfound a).mp ha
    exact ⟨rfl, hp, hq⟩
  · rintro ⟨rfl, hp, hq⟩
    exact ⟨_, _, (hffound _).mpr ⟨rfl, hp⟩, (hxfound _).mpr ⟨rfl, hq⟩, rfl⟩

theorem Rereads.withDefault {Q : α → Prop} {f : Fields ρ (α → β)} {g : ρ → α → β} {get : ρ → α} {name : String}
    {s : Shape α} {value : α} (hf : f.Rereads g P) (h : s.Rereads Q) :
    (f <*> Fields.withDefault name s value get).Rereads (fun r => g r (get r)) fun r => P r ∧ Q (get r) :=
  hf.seq (withDefault_rereads h)

end Fields

theorem Display.fullEntries_eq (fields : List (String × Display)) :
    fullEntries fields = fields.map fun e => (e.1, e.2.full) := by
  induction fields with
  | nil => rfl
  | cons e fields ih => rw [fullEntries, ih, List.map_cons]

theorem Shape.record_rereads {P : ρ → Prop} {name : String} {fields : Fields ρ ρ} {get : ρ → ρ}
    (h : fields.Rereads get P) (whole : get = id) (distinct : ∀ r, ((fields.display r).map (·.1)).Nodup) :
    (Shape.record name fields).Rereads P := by
  intro r b
  have hnames : ((Display.fullEntries (fields.display r)).map (·.1)).Nodup := by
    rw [Display.fullEntries_eq, List.map_map]
    exact distinct r
  have hfound := h r (Display.fullEntries (fields.display r)) fun e he => lookup?_of_mem hnames <| by
    rw [Display.fullEntries_eq]
    exact List.mem_map.mpr ⟨e, he, rfl⟩
  rw [whole] at hfound
  exact hfound b

end

namespace RetrySettings

/-- Retry settings whose times and multiplier are comparable with other numbers. -/
structure Ordered (s : RetrySettings) : Prop where
  maxElapsed : ∀ x ∈ s.maxElapsed, (Number.float x).value ≠ .nan
  initialInterval : (Number.float s.initialInterval).value ≠ .nan
  multiplier : (Number.float s.multiplier).value ≠ .nan
  maxInterval : (Number.float s.maxInterval).value ≠ .nan

variable {s t : RetrySettings}

theorem Bounded.ordered (h : s.Bounded) : s.Ordered where
  maxElapsed x hx := Number.value_ne_nan_of_le (Number.zero_le_float.mpr (h.maxElapsed x hx))
  initialInterval := Number.value_ne_nan_of_le (Number.zero_le_float.mpr h.initialInterval)
  multiplier := Number.value_ne_nan_of_le (Number.one_le_float.mpr h.multiplier)
  maxInterval := Number.value_ne_nan_of_le (Number.zero_le_float.mpr h.maxInterval)

theorem bounded_iff : s.Bounded ↔ (Bounds.limits ⟨none, none⟩ s).error? = none ∧ s.Ordered := by
  constructor
  · intro h
    exact ⟨h.limits_accepted, h.ordered⟩
  · rintro ⟨accepted, ordered⟩
    have sensible := Limits.error?_eq_none.mp accepted
    have hzero (x : Float) (hx : (Number.float x).value ≠ .nan) (h : ¬Number.float x < .int 0) : 0 ≤ x :=
      Number.zero_le_float.mp ((Number.not_lt_int.mp h).resolve_right hx)
    have hone (x : Float) (hx : (Number.float x).value ≠ .nan) (h : ¬Number.float x < .int 1) : 1 ≤ x :=
      Number.one_le_float.mp ((Number.not_lt_int.mp h).resolve_right hx)
    exact {
      maxElapsed := fun x hx => hzero x (ordered.maxElapsed x hx)
        (sensible.maxElapsed (.float x) (Option.mem_map.mpr ⟨x, hx, rfl⟩))
      maxRetries := Number.int_le_int.mp ((Number.not_lt_int.mp sensible.maxRetries).resolve_right nofun)
      initialInterval := hzero _ ordered.initialInterval sensible.initialInterval
      multiplier := hone _ ordered.multiplier sensible.multiplier
      randomizationFactor := ⟨Number.zero_le_float.mp sensible.randomizationFactor.1,
        Number.float_le_one.mp sensible.randomizationFactor.2⟩
      maxInterval := hzero _ ordered.maxInterval sensible.maxInterval }

theorem rereads : shape.Rereads Bounded := by
  have hfields : shape.Rereads _ := Shape.record_rereads
    ((Fields.withDefault_rereads ((Shape.float_rereads.atLeast 0).optional fun _ => nofun)).map RetrySettings.mk
      |>.withDefault (Shape.int_rereads.atLeast 0)
      |>.withDefault (Shape.float_rereads.atLeast 0)
      |>.withDefault (Shape.float_rereads.atLeast 1)
      |>.withDefault ((Shape.float_rereads.atMost 1).atLeast 0)
      |>.withDefault (Shape.float_rereads.atLeast 0)) rfl (by simp)
  intro s t
  refine (hfields s t).trans (and_congr_right fun _ => ?_)
  constructor
  · rintro ⟨⟨⟨⟨⟨hmaxElapsed, -, hmaxRetries⟩, -, hinitialInterval⟩, -, hmultiplier⟩, ⟨-, hone⟩, hzero⟩, -,
      hmaxInterval⟩
    exact ⟨fun x hx => (hmaxElapsed x hx).2, hmaxRetries, hinitialInterval, hmultiplier, ⟨hzero, hone⟩, hmaxInterval⟩
  · intro h
    exact ⟨⟨⟨⟨⟨fun x hx => ⟨trivial, h.maxElapsed x hx⟩, trivial, h.maxRetries⟩, trivial, h.initialInterval⟩, trivial,
      h.multiplier⟩, ⟨trivial, h.randomizationFactor.2⟩, h.randomizationFactor.1⟩, trivial, h.maxInterval⟩

theorem read_json : shape.read (shape.json s) = .ok t ↔
    t = s ∧ (Bounds.limits ⟨none, none⟩ s).error? = none ∧ s.Ordered :=
  (rereads s t).trans (and_congr_right fun _ => bounded_iff)

def within (s : RetrySettings) (time : Option Float) (count : Option Int) : RetrySettings :=
  { s with maxElapsed := time.or s.maxElapsed, maxRetries := count.getD s.maxRetries }

theorem limits_within (s : RetrySettings) (time : Option Float) (count : Option Int) :
    Bounds.limits ⟨none, none⟩ (s.within time count) = Bounds.limits ⟨time.map .float, count.map .int⟩ s := by
  cases time <;> cases count <;> rfl

/-- Settings are accepted exactly where the limits that they make are, as long as none of their times is `nan` nor the
multiplier; and so are the bounds of a call, which would be accepted as settings of their own. -/
theorem bounds_agree (s : RetrySettings) :
    (∀ t, shape.read (shape.json s) = .ok t ↔ t = s ∧ (Bounds.limits ⟨none, none⟩ s).error? = none ∧ s.Ordered) ∧
      ∀ time count t, shape.read (shape.json (s.within time count)) = .ok t ↔
        t = s.within time count ∧ (Bounds.limits ⟨time.map .float, count.map .int⟩ s).error? = none ∧
          (s.within time count).Ordered := by
  refine ⟨fun t => read_json, fun time count t => ?_⟩
  rw [read_json, limits_within]

theorem unordered_time_accepted :
    let s : RetrySettings := { RetrySettings.default with maxElapsed := some (0.0 / 0.0) }
    (∀ t, shape.read (shape.json s) ≠ .ok t) ∧ (Bounds.limits ⟨none, none⟩ s).error? = none := by
  intro s
  have hnan : (Number.float (0.0 / 0.0)).value = .nan := by decide +kernel
  refine ⟨fun t h => ?_, Option.isNone_iff_eq_none.mp (by decide +kernel)⟩
  exact ((rereads s t).mp h).2.ordered.maxElapsed _ rfl hnan

end RetrySettings

end LedgerQuery
