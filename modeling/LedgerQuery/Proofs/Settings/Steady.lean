import LedgerQuery.Proofs.Document.Order
import LedgerQuery.Proofs.Settings.Precedence

namespace LedgerQuery

open Document

variable {α β ρ : Type} {R : α → α → Prop}

def SameUnder (R : α → α → Prop) (l m : List (String × α)) : Prop :=
  ∀ name, Option.Rel R (lookup? name l) (lookup? name m)

theorem rel_of_refl (refl : ∀ a, R a a) (o : Option α) : Option.Rel R o o := by
  cases o with
  | none => exact .none
  | some a => exact .some (refl a)

theorem rel_or {o o' u u' : Option α} (h : Option.Rel R o o') (hu : Option.Rel R u u') :
    Option.Rel R (o.or u) (o'.or u') := by
  cases h with
  | none => simpa using hu
  | some hab => exact .some hab

theorem SameUnder.trans {l m n : List (String × α)} (h : SameUnder R l m)
    (h' : SameUnder R m n) (trans : ∀ a b c, R a b → R b c → R a c) : SameUnder R l n := by
  intro name
  have hlm := h name
  have hmn := h' name
  generalize lookup? name l = o, lookup? name m = u, lookup? name n = v at hlm hmn
  cases hlm with
  | none => exact hmn
  | some hab =>
      cases hmn with
      | some hbc => exact .some (trans _ _ _ hab hbc)

theorem lookup?_foldl_insert (name : String) (l acc : List (String × α)) :
    lookup? name (l.foldl (fun m (k, a) => insert k a m) acc) = (lookup? name l.reverse).or (lookup? name acc) := by
  induction l generalizing acc with
  | nil => rfl
  | cons e l ih =>
      obtain ⟨k, a⟩ := e
      have hinsert : lookup? name (insert k a acc) = (lookup? name [(k, a)]).or (lookup? name acc) := by
        by_cases hk : k = name
        · subst hk
          rw [lookup?_insert_self, lookup?_cons, if_pos rfl, Option.some_or]
        · rw [lookup?_insert_of_ne (Ne.symm hk), lookup?_cons, if_neg hk, lookup?_nil, Option.none_or]
      change lookup? name (l.foldl _ (insert k a acc)) = _
      rw [ih, hinsert, List.reverse_cons, lookup?_append, Option.or_assoc]

theorem or_comm_of_ne {p q : String × α} (ne : p.1 ≠ q.1) (name : String) :
    (lookup? name [p]).or (lookup? name [q]) = (lookup? name [q]).or (lookup? name [p]) := by
  obtain ⟨k, a⟩ := p
  by_cases hk : k = name
  · subst hk
    rw [lookup?_cons, if_pos rfl, Option.some_or, lookup?_cons, if_neg (Ne.symm ne), lookup?_nil, Option.none_or]
  · rw [lookup?_cons, if_neg hk, lookup?_nil, Option.none_or, Option.or_none]

namespace Reading

theorem all_cons_eq_ok {x : Reading α} {l : List (Reading α)} {as : List α} :
    all (x :: l) = .ok as ↔ ∃ a rest, x = .ok a ∧ all l = .ok rest ∧ a :: rest = as := by
  rw [all, apply_eq_ok]
  cases x with
  | error fs => simp [Except.map]
  | ok a => simp [Except.map]

end Reading

namespace Shape

/-- Of entries in another order a shape reads something if it does of the entries, and something related. -/
structure Steady (R : α → α → Prop) (s : Shape α) : Prop where
  reread : ∀ {t : Array Node} {es fs : Entries} {a : α}, es.Reorders fs → s.read (View.mk t (.map es)) = .ok a →
    ∃ b, s.read (View.mk t (.map fs)) = .ok b ∧ R a b

variable {s : Shape α}

theorem Flat.steady (h : s.Flat) (R : α → α → Prop) : s.Steady R := ⟨fun _ reads => absurd reads (h.read_map _ _ _)⟩

theorem readEntry_ok {t : Array Node} {key : Scalar} {n : Node} {p : String × α} :
    readEntry s.read (key.mapKey, View.mk t n) = .ok p ↔
      readKey key.mapKey = .ok p.1 ∧ s.read (View.mk t n) = .ok p.2 := by
  rw [readEntry, Reading.both, Reading.apply_eq_ok]
  constructor
  · rintro ⟨g, a, hg, ha, rfl⟩
    cases hkey : readKey key.mapKey with
    | error fs =>
        rw [hkey] at hg
        cases hg
    | ok k =>
        rw [hkey] at hg
        cases hg
        exact ⟨rfl, Reading.under_eq_ok.mp ha⟩
  · rintro ⟨hkey, ha⟩
    exact ⟨Prod.mk p.1, p.2, by rw [hkey]; rfl, Reading.under_eq_ok.mpr ha, rfl⟩

theorem Steady.entries (h : s.Steady R) (refl : ∀ a, R a a) {t : Array Node} {es fs : Entries}
    {l : List (String × α)} (reorders : es.Reorders fs)
    (reads : Reading.all ((es.views t).map (readEntry s.read)) = .ok l) :
    ∃ m, Reading.all ((fs.views t).map (readEntry s.read)) = .ok m ∧ SameUnder R l.reverse m.reverse := by
  induction reorders generalizing l with
  | @swap k j x y rest ne =>
      obtain ⟨p, l', hp, hl', rfl⟩ := Reading.all_cons_eq_ok.mp reads
      obtain ⟨q, m, hq, hm, rfl⟩ := Reading.all_cons_eq_ok.mp hl'
      refine ⟨q :: p :: m, Reading.all_cons_eq_ok.mpr ⟨q, _, hq, Reading.all_cons_eq_ok.mpr ⟨p, _, hp, hm, rfl⟩, rfl⟩,
        fun name => ?_⟩
      obtain ⟨hpkey, -⟩ := readEntry_ok.mp hp
      obtain ⟨hqkey, -⟩ := readEntry_ok.mp hq
      have hne : p.1 ≠ q.1 := by
        rwa [← show k = p.1 from Except.ok.inj hpkey, ← show j = q.1 from Except.ok.inj hqkey]
      simp only [List.reverse_cons, List.append_assoc, lookup?_append]
      rw [or_comm_of_ne hne name]
      exact rel_of_refl refl _
  | @inside key es fs rest below ih =>
      obtain ⟨⟨k, a⟩, m, hp, hm, rfl⟩ := Reading.all_cons_eq_ok.mp reads
      obtain ⟨hkey, ha⟩ := readEntry_ok.mp hp
      obtain ⟨b, hb, hab⟩ := h.reread below ha
      refine ⟨(k, b) :: m,
        Reading.all_cons_eq_ok.mpr ⟨(k, b), m, readEntry_ok.mpr ⟨hkey, hb⟩, hm, rfl⟩, fun name => ?_⟩
      rw [List.reverse_cons, List.reverse_cons, lookup?_append, lookup?_append]
      refine rel_or (rel_of_refl refl _) ?_
      rw [lookup?_cons, lookup?_cons]
      split
      · exact .some hab
      · exact .none
  | @after e es fs rest ih =>
      obtain ⟨p, l', hp, hl', rfl⟩ := Reading.all_cons_eq_ok.mp reads
      obtain ⟨m, hm, hlast⟩ := ih hl'
      refine ⟨p :: m, Reading.all_cons_eq_ok.mpr ⟨p, m, hp, hm, rfl⟩, fun name => ?_⟩
      rw [List.reverse_cons, List.reverse_cons, lookup?_append, lookup?_append]
      exact rel_or (hlast name) (rel_of_refl refl _)

theorem Steady.map (h : s.Steady R) (refl : ∀ a, R a a) : s.map.Steady (SameUnder R) := by
  refine ⟨fun {t es fs l} reorders reads => ?_⟩
  obtain ⟨l, hl, rfl⟩ := exists_of_map_read reads
  obtain ⟨m, hm, hlast⟩ := h.entries refl reorders hl
  refine ⟨_, congrArg (Except.map _) hm, fun name => ?_⟩
  rw [lookup?_foldl_insert, lookup?_foldl_insert]
  exact rel_or (hlast name) .none

end Shape

namespace Fields

/-- Of entries under whose names something changed places, fields are read if they are of the entries, and come to
something related. -/
structure Steady (R : α → α → Prop) (f : Fields ρ α) : Prop where
  reread : ∀ {t : Array Node} {es fs : Entries} {a : α},
    (∀ name, Entries.Moves (es.get? (.text name)) (fs.get? (.text name))) →
      f.read (es.views t) = .ok a → ∃ b, f.read (fs.views t) = .ok b ∧ R a b

section

variable {s : Shape α} {name : String} {get : ρ → α}

theorem steady_of_read {f : Fields ρ α} (h : s.Steady R) (refl : ∀ a, R a a) (absent : Reading α)
    (hread : ∀ entries : List (MapKey × View),
      f.read entries = (valueUnder? name entries).elim absent fun x => (s.read x).under (.key name)) : f.Steady R := by
  refine ⟨fun {t es fs a} moves reads => ?_⟩
  have hname := moves name
  rw [hread, valueUnder?_views] at reads ⊢
  generalize es.get? (.text name) = o, fs.get? (.text name) = o' at hname reads
  cases hname with
  | same o => exact ⟨a, reads, refl a⟩
  | inside below =>
      obtain ⟨b, hb, hab⟩ := h.reread below (Reading.under_eq_ok.mp reads)
      exact ⟨b, Reading.under_eq_ok.mpr hb, hab⟩

theorem required_steady (h : s.Steady R) (refl : ∀ a, R a a) : (required name s get).Steady R :=
  steady_of_read h refl (.error [⟨[.key name], .missing⟩]) fun entries => by
    simp only [required]
    cases valueUnder? name entries <;> rfl

theorem withDefault_steady {value : α} (h : s.Steady R) (refl : ∀ a, R a a) :
    (withDefault name s value get).Steady R :=
  steady_of_read h refl (.ok value) fun entries => by
    simp only [withDefault]
    cases valueUnder? name entries <;> rfl

end

section

variable {S : β → β → Prop}

theorem Steady.map {f : Fields ρ α} {g : α → β} (h : f.Steady R) (hg : Relator.LiftFun R S g g) :
    (g <$> f).Steady S := by
  refine ⟨fun moves reads => ?_⟩
  obtain ⟨a, ha, rfl⟩ := map_read.mp reads
  obtain ⟨b, hb, hab⟩ := h.reread moves ha
  exact ⟨g b, map_read.mpr ⟨b, hb, rfl⟩, hg hab⟩

theorem Steady.seq {f : Fields ρ (α → β)} {x : Fields ρ α} (hf : f.Steady (Relator.LiftFun R S)) (hx : x.Steady R) :
    (f <*> x).Steady S := by
  refine ⟨fun moves reads => ?_⟩
  obtain ⟨g, a, hg, ha, rfl⟩ := seq_read.mp reads
  obtain ⟨g', hg', hgg⟩ := hf.reread moves hg
  obtain ⟨b, hb, hab⟩ := hx.reread moves ha
  exact ⟨g' b, seq_read.mpr ⟨g', b, hg', hb, rfl⟩, hgg hab⟩

end

theorem Steady.seq_eq {f : Fields ρ (α → β)} {x : Fields ρ α} (hf : f.Steady Eq) (hx : x.Steady Eq) :
    (f <*> x).Steady Eq := by
  have hlift : f.Steady (Relator.LiftFun Eq Eq) := by
    refine ⟨fun moves reads => ?_⟩
    obtain ⟨g, hg, rfl⟩ := hf.reread moves reads
    refine ⟨_, hg, ?_⟩
    rintro a _ rfl
    exact rfl
  exact hlift.seq hx

theorem flat_steady {s : Shape α} {name : String} {value : α} {get : ρ → α} (h : s.Flat) :
    (withDefault name s value get).Steady Eq := withDefault_steady (h.steady Eq) fun _ => rfl

end Fields

theorem Shape.record_steady {R : ρ → ρ → Prop} {name : String} {fields : Fields ρ ρ} (h : fields.Steady R) :
    (Shape.record name fields).Steady R := ⟨fun reorders reads => h.reread reorders.moves reads⟩

/-- Hosts that are the same, whatever the order of their headers. -/
structure HostSettings.Same (a b : HostSettings) : Prop where
  baseUrl : a.baseUrl = b.baseUrl
  headers : SameUnder Eq a.headers b.headers
  transport : a.transport = b.transport

/-- Settings that are the same, whatever the order of their hosts and headers. -/
structure Settings.Same (a b : Settings) : Prop where
  version : a.version = b.version
  hosts : SameUnder HostSettings.Same a.hosts b.hosts
  retry : a.retry = b.retry

theorem HostSettings.Same.refl (a : HostSettings) : a.Same a := ⟨rfl, fun _ => rel_of_refl (fun _ => rfl) _, rfl⟩

theorem Settings.Same.refl (a : Settings) : a.Same a := ⟨rfl, fun _ => rel_of_refl HostSettings.Same.refl _, rfl⟩

theorem HostSettings.Same.trans {a b c : HostSettings} (h : a.Same b) (h' : b.Same c) : a.Same c where
  baseUrl := h.baseUrl.trans h'.baseUrl
  headers := h.headers.trans h'.headers fun _ _ _ => Eq.trans
  transport := h.transport.trans h'.transport

theorem Settings.Same.trans {a b c : Settings} (h : a.Same b) (h' : b.Same c) : a.Same c where
  version := h.version.trans h'.version
  hosts := h.hosts.trans h'.hosts fun _ _ _ => HostSettings.Same.trans
  retry := h.retry.trans h'.retry

section

open Shape Fields

theorem TransportSettings.shape_steady : shape.Steady Eq :=
  record_steady (((flat_steady int_flat).map fun _ _ => congrArg _).seq_eq (flat_steady int_flat)
    |>.seq_eq (flat_steady bool_flat))

theorem RetrySettings.shape_steady : shape.Steady Eq :=
  record_steady (((flat_steady (float_flat.atLeast 0).optional).map fun _ _ => congrArg _).seq_eq
    (flat_steady (int_flat.atLeast 0)) |>.seq_eq (flat_steady (float_flat.atLeast 0))
    |>.seq_eq (flat_steady (float_flat.atLeast 1)) |>.seq_eq (flat_steady ((float_flat.atMost 1).atLeast 0))
    |>.seq_eq (flat_steady (float_flat.atLeast 0)))

theorem HostSettings.shape_steady : shape.Steady HostSettings.Same := by
  have hbaseUrl := (text_flat.checked checkBaseUrl).steady Eq
  have hheaders := (text_flat.steady Eq).map fun _ => rfl
  refine record_steady (.seq (.seq (.map (required_steady hbaseUrl fun _ => rfl) ?_)
    (withDefault_steady hheaders fun _ _ => rel_of_refl (fun _ => rfl) _))
    (withDefault_steady TransportSettings.shape_steady fun _ => rfl))
  exact fun _ _ hbaseUrl _ _ hheaders _ _ htransport => ⟨hbaseUrl, hheaders, htransport⟩

theorem Settings.shape_steady : shape.Steady Settings.Same := by
  have hhosts := HostSettings.shape_steady.map HostSettings.Same.refl
  refine record_steady (.seq (.seq (.map (required_steady (int_flat.steady Eq) fun _ => rfl) ?_)
    (required_steady hhosts fun _ _ => rel_of_refl HostSettings.Same.refl _))
    (withDefault_steady RetrySettings.shape_steady fun _ => rfl))
  exact fun _ _ hversion _ _ hhosts _ _ hretry => ⟨hversion, hhosts, hretry⟩

end

end LedgerQuery
