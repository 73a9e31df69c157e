import LedgerQuery.Proofs.Document.Reading
import LedgerQuery.Proofs.Document.Sharing
import LedgerQuery.Settings.Schema

namespace LedgerQuery

open Document

variable {α β ρ : Type} {S : Nat → Prop} {t t' : Array Node}

/-- Tables that agree on a region which no way leads out of. -/
structure Document.AgreeOn (S : Nat → Prop) (t t' : Array Node) : Prop where
  closed : Closed S t
  same : ∀ i, S i → t[i]? = t'[i]?

theorem Document.AgreeOn.resolve_eq (h : AgreeOn S t t') {n : Node} (hn : n.Within S) :
    resolve t n = resolve t' n := by
  cases hn with
  | shared mem => simp only [resolve, Array.getD_eq_getD_getElem?, h.same _ mem]
  | _ => rfl

theorem Document.AgreeOn.within_of_resolve (h : AgreeOn S t t') {n : Node} (hn : n.Within S) {es : Entries}
    (hes : resolve t n = .map es) : (Node.map es).Within S := by
  cases hn with
  | leaf s => cases hes
  | list items => cases hes
  | map inside =>
      cases hes
      exact .map inside
  | @shared i mem =>
      simp only [resolve, Array.getD_eq_getD_getElem?] at hes
      cases hi : t[i]? with
      | none =>
          rw [hi] at hes
          cases hes
      | some m =>
          rw [hi] at hes
          cases hes
          exact h.closed i es mem hi

theorem Document.View.layer_of_resolve {table : Array Node} {n : Node} {es : Entries}
    (h : resolve table n = .map es) : Source.layer (View.mk table n) = .map (es.views table) := by
  change View.layer _ = _
  rw [View.layer, h]
  rfl

theorem Shape.resolve_of_map_read {s : Shape α} {n : Node} {m : List (String × α)}
    (h : s.map.read (View.mk t n) = .ok m) : ∃ es, resolve t n = .map es := by
  simp only [Shape.map, Source.layer, View.layer] at h
  cases hn : resolve t n with
  | map es => exact ⟨es, rfl⟩
  | leaf k =>
      rw [hn] at h
      simp only at h
      split at h
      · exact absurd (by assumption) (k.layer_ne_map _)
      · cases h
  | _ =>
      rw [hn] at h
      cases h

namespace Shape

structure Local (s : Shape α) : Prop where
  read_eq : ∀ {S : Nat → Prop} {t t' : Array Node}, AgreeOn S t t' → ∀ {n : Node}, n.Within S →
    s.read (View.mk t n) = s.read (View.mk t' n)

theorem local_of_resolve {s : Shape α}
    (h : ∀ {t t' : Array Node} {n m : Node}, resolve t n = m → resolve t' n = m →
      s.read (View.mk t n) = s.read (View.mk t' n)) : s.Local :=
  ⟨fun agree _ hn => h rfl (agree.resolve_eq hn).symm⟩

theorem text_local : text.Local := local_of_resolve fun {t t' n m} h h' => by
  simp only [text, Source.layer, View.layer, h, h']
  cases m <;> rfl

theorem int_local : int.Local := local_of_resolve fun {t t' n m} h h' => by
  simp only [int, Source.layer, View.layer, h, h']
  cases m <;> rfl

theorem bool_local : bool.Local := local_of_resolve fun {t t' n m} h h' => by
  simp only [bool, Source.layer, View.layer, h, h']
  cases m <;> rfl

theorem float_local : float.Local := local_of_resolve fun {t t' n m} h h' => by
  simp only [float, Source.layer, View.layer, h, h']
  cases m <;> rfl

theorem Local.checked {s : Shape α} (h : s.Local) (rule : α → Except FaultKind α) : (s.checked rule).Local :=
  ⟨fun agree _ hn => by simp only [Shape.checked, h.read_eq agree hn]⟩

theorem Local.optional {s : Shape α} (h : s.Local) : s.optional.Local := ⟨fun {S t t'} agree n hn => by
  have hnull : Source.layer (View.mk t n) = .null ↔ Source.layer (View.mk t' n) = .null := by
    simp only [Source.layer, View.layer, agree.resolve_eq hn]
    cases resolve t' n <;> simp
  by_cases hlayer : Source.layer (View.mk t n) = .null
  · rw [optional_read_of_null hlayer, optional_read_of_null (hnull.mp hlayer)]
  · rw [optional_read_of_ne hlayer, optional_read_of_ne (hnull.not.mp hlayer), h.read_eq agree hn]⟩

theorem Local.map_entries {s : Shape α} (h : s.Local) (agree : AgreeOn S t t') {es : Entries}
    (hes : ∀ e ∈ es, e.2.Within S) :
    (es.views t).map (readEntry s.read) = (es.views t').map (readEntry s.read) := by
  rw [Entries.views, Entries.views, List.map_map, List.map_map]
  refine List.map_congr_left fun e he => ?_
  simp only [Function.comp_apply, readEntry, h.read_eq agree (hes e he)]

theorem Local.map {s : Shape α} (h : s.Local) : s.map.Local := ⟨fun {S t t'} agree n hn => by
  cases hm : resolve t n with
  | map es =>
      cases agree.within_of_resolve hn hm with
      | map inside =>
          have hm' := agree.resolve_eq hn ▸ hm
          simp only [Shape.map, View.layer_of_resolve hm, View.layer_of_resolve hm', h.map_entries agree inside]
  | _ =>
      have hm' := agree.resolve_eq hn ▸ hm
      simp only [Shape.map, Source.layer, View.layer, hm, hm']⟩

theorem all_off (name : String) {s : Shape α} {es : Entries} {l : List (String × α)}
    (h : Reading.all ((es.views t).map (readEntry s.read)) = .ok l) :
    ∃ k, Reading.all (((es.off name).views t).map (readEntry s.read)) = .ok k ∧
      k.filter (fun e => e.1 ≠ name) = l.filter fun e => e.1 ≠ name := by
  induction es generalizing l with
  | nil => exact ⟨l, h, rfl⟩
  | cons e es ih =>
      obtain ⟨g, rest, hg, hrest, rfl⟩ := Reading.apply_eq_ok.mp h
      cases hentry : readEntry s.read (e.1.mapKey, View.mk t e.2) with
      | error faults =>
          rw [hentry] at hg
          cases hg
      | ok p =>
          rw [hentry] at hg
          cases hg
          obtain ⟨k, hk, hfilter⟩ := ih hrest
          by_cases hname : e.1 = .text name
          · have hp : p.1 = name := by
              rw [hname] at hentry
              exact (Scalar.text.inj (readEntry_eq_ok (k := .text name) nofun hentry).1).symm
            refine ⟨k, ?_, ?_⟩
            · rwa [Entries.off, List.filter_cons_of_neg (by simpa using hname)]
            · rw [List.filter_cons_of_neg (by simpa using hp)]
              exact hfilter
          · refine ⟨p :: k, ?_, ?_⟩
            · rw [Entries.off, List.filter_cons_of_pos (by simpa using hname)]
              exact Reading.apply_eq_ok.mpr ⟨_, k, congrArg (Except.map List.cons) hentry, hk, rfl⟩
            · rw [List.filter_cons, List.filter_cons, hfilter]

theorem Local.map_off {s : Shape α} (h : s.Local) (agree : AgreeOn S t t') {es es' : Entries} {name : String}
    (hoff : es.off name = es'.off name) (hes : (Node.map (es.off name)).Within S) {m m' : List (String × α)}
    (hm : s.map.read (View.mk t (.map es)) = .ok m) (hm' : s.map.read (View.mk t' (.map es')) = .ok m') :
    m.filter (fun e => e.1 ≠ name) = m'.filter fun e => e.1 ≠ name := by
  obtain ⟨l, hl, rfl⟩ := exists_of_map_read hm
  obtain ⟨l', hl', rfl⟩ := exists_of_map_read hm'
  obtain ⟨k, hk, hfilter⟩ := all_off name hl
  obtain ⟨k', hk', hfilter'⟩ := all_off name hl'
  cases hes with
  | map inside =>
      rw [h.map_entries agree inside, hoff, hk'] at hk
      obtain rfl := Except.ok.inj hk
      have hinsert (l : List (String × α)) := filter_foldl_insert (fun key => decide (key ≠ name)) l []
      rw [hinsert, hinsert, ← hfilter, ← hfilter']

end Shape

namespace Fields

structure Local (f : Fields ρ α) : Prop where
  read_eq : ∀ {S : Nat → Prop} {t t' : Array Node}, AgreeOn S t t' → ∀ {es : Entries}, (∀ e ∈ es, e.2.Within S) →
    f.read (es.views t) = f.read (es.views t')

section

variable {s : Shape α} {es es' : Entries} {name : String}

theorem withDefault_congr (h : s.Local) (agree : AgreeOn S t t') (hget : es.get? (.text name) = es'.get? (.text name))
    (hes : ∀ n, es.get? (.text name) = some n → n.Within S) (value : α) (get : ρ → α) :
    (withDefault name s value get).read (es.views t) = (withDefault name s value get).read (es'.views t') := by
  simp only [withDefault, valueUnder?_views, ← hget]
  cases hx : es.get? (.text name) with
  | none => rfl
  | some x => simp only [Option.map_some, h.read_eq agree (hes x hx)]

theorem required_congr (h : s.Local) (agree : AgreeOn S t t') (hget : es.get? (.text name) = es'.get? (.text name))
    (hes : ∀ n, es.get? (.text name) = some n → n.Within S) (get : ρ → α) :
    (required name s get).read (es.views t) = (required name s get).read (es'.views t') := by
  simp only [required, valueUnder?_views, ← hget]
  cases hx : es.get? (.text name) with
  | none => rfl
  | some x => simp only [Option.map_some, h.read_eq agree (hes x hx)]

end

theorem withDefault_local {s : Shape α} (h : s.Local) (name : String) (value : α) (get : ρ → α) :
    (withDefault name s value get).Local :=
  ⟨fun agree _ hes => withDefault_congr h agree rfl (fun _ => Entries.within_get? (.map hes)) value get⟩

theorem required_local {s : Shape α} (h : s.Local) (name : String) (get : ρ → α) :
    (required name s get).Local :=
  ⟨fun agree _ hes => required_congr h agree rfl (fun _ => Entries.within_get? (.map hes)) get⟩

theorem Local.map {f : Fields ρ α} (h : f.Local) (g : α → β) : (g <$> f).Local :=
  ⟨fun agree _ hes => congrArg (Reading.apply (.ok g)) (h.read_eq agree hes)⟩

theorem Local.seq {f : Fields ρ (α → β)} {x : Fields ρ α} (hf : f.Local) (hx : x.Local) : (f <*> x).Local :=
  ⟨fun agree _ hes => congrArg₂ Reading.apply (hf.read_eq agree hes) (hx.read_eq agree hes)⟩

end Fields

theorem Shape.record_local {fields : Fields ρ ρ} (h : fields.Local) (name : String) :
    (Shape.record name fields).Local := ⟨fun {S t t'} agree n hn => by
  cases hm : resolve t n with
  | map es =>
      cases agree.within_of_resolve hn hm with
      | map inside =>
          have hm' := agree.resolve_eq hn ▸ hm
          simp only [Shape.record, View.layer_of_resolve hm, View.layer_of_resolve hm', h.read_eq agree inside]
  | _ =>
      have hm' := agree.resolve_eq hn ▸ hm
      simp only [Shape.record, Source.layer, View.layer, hm, hm']⟩

theorem TransportSettings.shape_local : shape.Local :=
  Shape.record_local ((((Fields.withDefault_local Shape.int_local _ _ _).map _).seq
    (Fields.withDefault_local Shape.int_local _ _ _)).seq (Fields.withDefault_local Shape.bool_local _ _ _)) _

theorem HostSettings.shape_local : shape.Local :=
  Shape.record_local ((((Fields.required_local (Shape.text_local.checked _) _ _).map _).seq
    (Fields.withDefault_local Shape.text_local.map _ _ _)).seq
    (Fields.withDefault_local TransportSettings.shape_local _ _ _)) _

theorem RetrySettings.shape_local : shape.Local := by
  have interval : (Shape.float.atLeast 0).Local := Shape.float_local.checked _
  refine Shape.record_local (.seq (.seq (.seq (.seq (.seq (.map ?_ _) ?_) ?_) ?_) ?_) ?_) _
  · exact Fields.withDefault_local interval.optional _ _ _
  · exact Fields.withDefault_local (Shape.int_local.checked _) _ _ _
  · exact Fields.withDefault_local interval _ _ _
  · exact Fields.withDefault_local (Shape.float_local.checked _) _ _ _
  · exact Fields.withDefault_local ((Shape.float_local.checked _).checked _) _ _ _
  · exact Fields.withDefault_local interval _ _ _

end LedgerQuery
