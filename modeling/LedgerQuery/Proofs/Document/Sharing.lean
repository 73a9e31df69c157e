import LedgerQuery.Proofs.Document.Update

namespace LedgerQuery

/-- From the node the way leads to the mapping in the table, through mappings only. -/
inductive Node.Leads (table : Array Node) : Node → Nat → Prop
  | here {i : Nat} (mapping : isSharedMap table i = true) : Leads table (.shared i) i
  | beyond {i j : Nat} {es : Entries} {e : Scalar × Node} (found : table[i]? = some (.map es)) (mem : e ∈ es)
      (leads : Leads table e.2 j) : Leads table (.shared i) j
  | entry {es : Entries} {e : Scalar × Node} {j : Nat} (mem : e ∈ es) (leads : Leads table e.2 j) :
      Leads table (.map es) j

/-- Below the node, as far as mappings go, there are references to the region only. -/
inductive Node.Within (S : Nat → Prop) : Node → Prop
  | leaf (s : Scalar) : Within S (.leaf s)
  | list (items : List Node) : Within S (.list items)
  | map {es : Entries} (inside : ∀ e ∈ es, Within S e.2) : Within S (.map es)
  | shared {i : Nat} (mem : S i) : Within S (.shared i)

namespace Document

/-- No way leads from the mappings of the region out of it. -/
def Closed (S : Nat → Prop) (table : Array Node) : Prop :=
  ∀ i es, S i → table[i]? = some (.map es) → (Node.map es).Within S

/-- The mappings that some of the nodes lead to, with all of the table that is no mapping. -/
def span (table : Array Node) (P : Node → Prop) (i : Nat) : Prop :=
  isSharedMap table i = true → ∃ n, P n ∧ n.Leads table i

end Document

section

variable {table : Array Node} {S : Nat → Prop} {P : Node → Prop}

theorem isSharedMap_of_found {i : Nat} {es : Entries} (h : table[i]? = some (.map es)) :
    isSharedMap table i = true := by
  rw [isSharedMap, h]

theorem isSharedMap_iff {i : Nat} : isSharedMap table i = true ↔ ∃ es, table[i]? = some (.map es) := by
  constructor
  · intro h
    rw [isSharedMap] at h
    split at h
    · rename_i es hes
      exact ⟨es, hes⟩
    · cases h
  · rintro ⟨es, hes⟩
    exact isSharedMap_of_found hes

theorem Node.Leads.beyond_mapping {n : Node} {i j : Nat} {es : Entries} {e : Scalar × Node} (h : n.Leads table i)
    (found : table[i]? = some (.map es)) (mem : e ∈ es) (leads : e.2.Leads table j) : n.Leads table j := by
  induction h with
  | here _ => exact .beyond found mem leads
  | beyond hfound hmem _ ih => exact .beyond hfound hmem (ih found)
  | entry hmem _ ih => exact .entry hmem (ih found)

theorem Node.within_of_leads : ∀ {n : Node}, (∀ i, n.Leads table i → S i) →
    (∀ i, isSharedMap table i = false → S i) → n.Within S
  | .leaf s, _, _ => .leaf s
  | .list items, _, _ => .list items
  | .map es, h, hrest => .map fun e he => within_of_leads (n := e.2) (fun i hi => h i (.entry he hi)) hrest
  | .shared i, h, hrest => .shared (by
      cases hi : isSharedMap table i with
      | true => exact h i (.here hi)
      | false => exact hrest i hi)
termination_by n => sizeOf n
decreasing_by
  have := List.sizeOf_lt_of_mem he
  obtain ⟨k, m⟩ := e
  simp only [Node.map.sizeOf_spec, Prod.mk.sizeOf_spec] at this ⊢
  omega

theorem Node.Leads.mem_of_within {n : Node} {i : Nat} (h : n.Leads table i) (within : n.Within S)
    (closed : Document.Closed S table) : S i := by
  induction h with
  | here _ =>
      cases within with
      | shared mem => exact mem
  | beyond found mem _ ih =>
      cases within with
      | shared hmem =>
          cases closed _ _ hmem found with
          | map inside => exact ih (inside _ mem)
  | entry mem _ ih =>
      cases within with
      | map inside => exact ih (inside _ mem)

namespace Document

theorem span_of_not_map {i : Nat} (h : isSharedMap table i = false) : span table P i := by
  intro hmap
  rw [h] at hmap
  cases hmap

theorem within_span {n : Node} (h : P n) : n.Within (span table P) :=
  Node.within_of_leads (fun _ hi _ => ⟨n, h, hi⟩) fun _ => span_of_not_map

theorem closed_span : Closed (span table P) table := by
  intro i es hi found
  obtain ⟨n, hn, hleads⟩ := hi (isSharedMap_of_found found)
  refine .map fun e he => Node.within_of_leads (fun j hj _ => ?_) fun _ => span_of_not_map
  exact ⟨n, hn, hleads.beyond_mapping found he hj⟩

end Document

end

namespace Entries

variable {table t t' : Array Node} {S : Nat → Prop} {x : Node} {es : Entries} {path : List String}

theorem within_put (hes : (Node.map es).Within S) (hx : x.Within S) (key : Scalar) :
    (Node.map (put key x es)).Within S := by
  cases hes with
  | map inside =>
      refine .map fun e he => ?_
      obtain heq | hmem := mem_put he
      · rwa [heq]
      · exact inside e hmem

theorem within_get? {key : Scalar} {n : Node} (hes : (Node.map es).Within S) (h : get? key es = some n) :
    n.Within S := by
  cases hes with
  | map inside =>
      obtain ⟨_, -, hmem⟩ := mem_of_get? h
      exact inside _ hmem

theorem within_below {key : String} (h : ∀ n, es.get? (.text key) = some n → n.Within S) :
    (Node.map (es.below key)).Within S := by
  rw [below]
  split
  · exact h _ (by assumption)
  · exact .map (List.forall_mem_nil _)

theorem detour?_eq_some {key : String} {i : Nat} (h : es.detour? table key = some i) :
    es.get? (.text key) = some (.shared i) ∧ isSharedMap table i = true := by
  rw [detour?] at h
  split at h
  · split at h
    · cases h
      exact ⟨by assumption, by assumption⟩
    · cases h
  · cases h

theorem set_of_detour {key next : String} {i : Nat} (h : es.detour? table key = some i) :
    set table x (key :: next :: path) es = (es, some ⟨i, next :: path⟩) := by
  rw [set, h]
  exact List.cons_ne_nil _ _

theorem set_of_way {key next : String} (h : es.detour? table key = none) :
    set table x (key :: next :: path) es =
      (es.put (.text key) (.map (set table x (next :: path) (es.below key)).1),
        (set table x (next :: path) (es.below key)).2) := by
  rw [set, h]
  exact List.cons_ne_nil _ _

theorem within_set (hes : (Node.map es).Within S) (hx : x.Within S) :
    (Node.map (set table x path es).1).Within S ∧ ∀ d, (set table x path es).2 = some d → S d.index := by
  induction path generalizing es with
  | nil => exact ⟨hes, nofun⟩
  | cons key path ih =>
      cases path with
      | nil => exact ⟨within_put hes hx _, nofun⟩
      | cons next path =>
          cases hdetour : es.detour? table key with
          | some i =>
              rw [set_of_detour hdetour]
              refine ⟨hes, fun d hd => ?_⟩
              cases hd
              cases within_get? hes (detour?_eq_some hdetour).1 with
              | shared mem => exact mem
          | none =>
              rw [set_of_way hdetour]
              obtain ⟨hinner, hrest⟩ := ih (within_below fun _ => within_get? hes)
              exact ⟨within_put hes hinner _, hrest⟩

theorem isSharedMap_of_set {d : Detour} (h : (set table x path es).2 = some d) :
    isSharedMap table d.index = true := by
  induction path generalizing es with
  | nil => cases h
  | cons key path ih =>
      cases path with
      | nil => cases h
      | cons next path =>
          cases hdetour : es.detour? table key with
          | some i =>
              rw [set_of_detour hdetour] at h
              cases h
              exact (detour?_eq_some hdetour).2
          | none =>
              rw [set_of_way hdetour] at h
              exact ih h

theorem detour?_congr (kind : ∀ i, isSharedMap t i = isSharedMap t' i) (key : String) (es : Entries) :
    es.detour? t key = es.detour? t' key := by
  rw [detour?, detour?]
  split
  · rw [kind]
  · rfl

theorem set_congr (kind : ∀ i, isSharedMap t i = isSharedMap t' i) : set t x path es = set t' x path es := by
  induction path generalizing es with
  | nil => rfl
  | cons key path ih =>
      cases path with
      | nil => rfl
      | cons next path =>
          cases hdetour : es.detour? t key with
          | some i =>
              rw [set_of_detour hdetour, set_of_detour (detour?_congr kind key es ▸ hdetour)]
          | none =>
              rw [set_of_way hdetour, set_of_way (detour?_congr kind key es ▸ hdetour), ih]

def off (name : String) (es : Entries) : Entries := es.filter fun e => e.1 ≠ .text name

theorem sameKey_of_ne {k : Scalar} {name : String} (h : k ≠ .text name) : k.sameKey (.text name) = false :=
  Bool.eq_false_iff.mpr fun hk => h (Scalar.sameKey_text_right.mp hk)

theorem get?_off {name key : String} (h : key ≠ name) (es : Entries) :
    (es.off name).get? (.text key) = es.get? (.text key) := by
  induction es with
  | nil => rfl
  | cons e rest ih =>
      obtain ⟨k, y⟩ := e
      by_cases hk : k = .text name
      · have hne : k.sameKey (.text key) = false := sameKey_of_ne fun heq => h (Scalar.text.inj (heq.symm.trans hk))
        rw [off, List.filter_cons_of_neg (by simpa using hk), get?, hne]
        exact ih
      · rw [off, List.filter_cons_of_pos (by simpa using hk), get?, get?]
        split
        · rfl
        · exact ih

theorem off_put_self (name : String) (x : Node) (es : Entries) : (es.put (.text name) x).off name = es.off name := by
  induction es with
  | nil => simp [put, off]
  | cons e rest ih =>
      obtain ⟨k, y⟩ := e
      rw [put]
      split
      · rename_i hk
        obtain rfl := Scalar.sameKey_text_right.mp hk
        simp [off]
      · rw [off, off, List.filter_cons, List.filter_cons]
        simp only [off] at ih
        rw [ih]

theorem off_put_of_ne {name key : String} (h : key ≠ name) (x : Node) (es : Entries) :
    (es.put (.text key) x).off name = (es.off name).put (.text key) x := by
  induction es with
  | nil => simp [put, off, h]
  | cons e rest ih =>
      obtain ⟨k, y⟩ := e
      rw [put]
      split
      · rename_i hk
        obtain rfl := Scalar.sameKey_text_right.mp hk
        simp [off, put, h, Scalar.sameKey_self]
      · rename_i hk
        by_cases hname : k = .text name
        · rw [off, off, List.filter_cons_of_neg (by simpa using hname), List.filter_cons_of_neg (by simpa using hname)]
          exact ih
        · rw [off, off, List.filter_cons_of_pos (by simpa using hname), List.filter_cons_of_pos (by simpa using hname),
            put, if_neg hk]
          exact congrArg _ ih

theorem below_congr {fs : Entries} {key : String} (h : es.get? (.text key) = fs.get? (.text key)) :
    es.below key = fs.below key := by
  rw [below, below, h]

theorem detour?_of_get? {fs : Entries} {key : String} (h : es.get? (.text key) = fs.get? (.text key)) :
    es.detour? table key = fs.detour? table key := by
  rw [detour?, detour?, h]

theorem set_cons (table : Array Node) (x : Node) (es : Entries) (key : String) (rest : List String) :
    (set table x (key :: rest) es).1 = es ∨ ∃ y, (set table x (key :: rest) es).1 = es.put (.text key) y := by
  cases rest with
  | nil => exact .inr ⟨x, rfl⟩
  | cons next rest =>
      cases hdetour : es.detour? table key with
      | some i => exact .inl (congrArg Prod.fst (set_of_detour hdetour))
      | none => exact .inr ⟨_, congrArg Prod.fst (set_of_way hdetour)⟩

theorem off_set_self (name : String) (rest : List String) :
    (set table x (name :: rest) es).1.off name = es.off name := by
  obtain heq | ⟨y, heq⟩ := set_cons table x es name rest
  · rw [heq]
  · rw [heq, off_put_self]

theorem get?_set_of_ne {key other : String} (h : key ≠ other) (rest : List String) :
    (set table x (key :: rest) es).1.get? (.text other) = es.get? (.text other) := by
  obtain heq | ⟨y, heq⟩ := set_cons table x es key rest
  · rw [heq]
  · rw [heq, get?_put_of_ne (sameKey_of_ne fun hk => h (Scalar.text.inj hk))]

theorem set_off (table : Array Node) (x : Node) (es : Entries) {name key : String} (h : key ≠ name) (rest : List String) :
    set table x (key :: rest) (es.off name) =
      ((set table x (key :: rest) es).1.off name, (set table x (key :: rest) es).2) := by
  have hget := get?_off h es
  cases rest with
  | nil => rw [set_last, set_last, off_put_of_ne h]
  | cons next rest =>
      cases hdetour : es.detour? table key with
      | some i => rw [set_of_detour hdetour, set_of_detour (detour?_of_get? hget ▸ hdetour)]
      | none =>
          rw [set_of_way hdetour, set_of_way (detour?_of_get? hget ▸ hdetour), below_congr hget, off_put_of_ne h]

theorem set_alike (kind : ∀ i, isSharedMap t i = isSharedMap t' i) {es es' : Entries} {name key : String}
    (hoff : es.off name = es'.off name) (h : key ≠ name) (rest : List String) :
    (set t x (key :: rest) es).1.off name = (set t' x (key :: rest) es').1.off name ∧
      (set t x (key :: rest) es).2 = (set t' x (key :: rest) es').2 := by
  have hset := set_off t x es h rest
  rw [hoff, set_congr kind, set_off t' x es' h] at hset
  exact Prod.mk.inj hset.symm

theorem within_off_set {name key : String} {rest : List String} (hes : (Node.map (es.off name)).Within S)
    (hx : x.Within S) : (Node.map ((set table x (key :: rest) es).1.off name)).Within S := by
  by_cases hkey : key = name
  · subst hkey
    rwa [off_set_self]
  · have hwithin : (Node.map (set table x (key :: rest) (es.off name)).1).Within S := (within_set hes hx).1
    rwa [set_off table x es hkey] at hwithin

theorem within_get?_set {key : String} (h : ∀ n, es.get? (.text key) = some n → n.Within S) (hx : x.Within S)
    {n : Node} (hn : (set table x path es).1.get? (.text key) = some n) : n.Within S := by
  cases path with
  | nil => exact h n hn
  | cons k rest =>
      by_cases hk : k = key
      · subst hk
        cases rest with
        | nil =>
            rw [set_last, get?_put_self] at hn
            cases hn
            exact hx
        | cons next rest =>
            cases hdetour : es.detour? table k with
            | some i =>
                rw [set_of_detour hdetour] at hn
                exact h n hn
            | none =>
                rw [set_of_way hdetour, get?_put_self] at hn
                cases hn
                exact (within_set (within_below h) hx).1
      · rw [get?_set_of_ne hk] at hn
        exact h n hn

end Entries

namespace Document

def follow (x : Node) (table : Array Node) : Option Detour → Array Node
  | none => table
  | some d => setShared x table d

theorem setShared_eq (x : Node) (table : Array Node) (d : Detour) :
    setShared x table d =
      follow x (table.setIfInBounds d.index (.map (Entries.set table x d.path (sharedEntries table d.index)).1))
        (Entries.set table x d.path (sharedEntries table d.index)).2 := by
  rw [setShared]
  split
  · rename_i h
    rw [h]
    rfl
  · rename_i h
    rw [h]
    rfl

theorem sharedEntries_eq {table : Array Node} {i : Nat} {es : Entries} (h : table[i]? = some (.map es)) :
    sharedEntries table i = es := by
  rw [sharedEntries, h]

theorem entries?_shared (table : Array Node) (i : Nat) :
    (⟨.shared i, table⟩ : Document).entries? =
      if isSharedMap table i then some (sharedEntries table i) else none := by
  rw [entries?, resolve, Array.getD_eq_getD_getElem?, isSharedMap, sharedEntries]
  rcases table[i]? with _ | (_ | _ | _ | _) <;> rfl

/-- Tables that differ in their mappings only, and there only in the region. -/
structure AgreeOff (S : Nat → Prop) (t t' : Array Node) : Prop where
  off : ∀ i, ¬S i → t[i]? = t'[i]?
  kind : ∀ i, t[i]? = t'[i]? ∨ isSharedMap t i = true ∧ isSharedMap t' i = true

section

variable {S : Nat → Prop} {x : Node} {t t' t'' : Array Node} {d : Detour}

theorem AgreeOff.refl (S : Nat → Prop) (t : Array Node) : AgreeOff S t t := ⟨fun _ _ => rfl, fun _ => .inl rfl⟩

theorem AgreeOff.isSharedMap_eq (h : AgreeOff S t t') (i : Nat) : isSharedMap t i = isSharedMap t' i := by
  obtain heq | ⟨ht, ht'⟩ := h.kind i
  · rw [isSharedMap, isSharedMap, heq]
  · rw [ht, ht']

theorem AgreeOff.symm (h : AgreeOff S t t') : AgreeOff S t' t where
  off i hi := (h.off i hi).symm
  kind i := (h.kind i).imp Eq.symm And.symm

theorem AgreeOff.trans (h : AgreeOff S t t') (h' : AgreeOff S t' t'') : AgreeOff S t t'' where
  off i hi := (h.off i hi).trans (h'.off i hi)
  kind i := by
    obtain heq | ⟨ht, ht'⟩ := h.kind i
    · obtain heq' | ⟨ht', ht''⟩ := h'.kind i
      · exact .inl (heq.trans heq')
      · exact .inr ⟨by rwa [isSharedMap, heq], ht''⟩
    · exact .inr ⟨ht, h'.isSharedMap_eq i ▸ ht'⟩

theorem getElem?_setIfInBounds_map {i : Nat} (h : isSharedMap t i = true) (es : Entries) :
    (t.setIfInBounds i (.map es))[i]? = some (.map es) := by
  obtain ⟨fs, hfs⟩ := isSharedMap_iff.mp h
  exact Array.getElem?_setIfInBounds_self_of_lt (Array.getElem?_eq_some_iff.mp hfs).1

theorem isSharedMap_setIfInBounds {i : Nat} (h : isSharedMap t i = true) (es : Entries) (j : Nat) :
    isSharedMap (t.setIfInBounds i (.map es)) j = isSharedMap t j := by
  by_cases hij : i = j
  · subst hij
    rw [h, isSharedMap_of_found (getElem?_setIfInBounds_map h es)]
  · rw [isSharedMap, isSharedMap, Array.getElem?_setIfInBounds_ne hij]

theorem sharedEntries_setIfInBounds {i : Nat} (h : isSharedMap t i = true) (es : Entries) (j : Nat) :
    sharedEntries (t.setIfInBounds i (.map es)) j = if i = j then es else sharedEntries t j := by
  split
  · rename_i hij
    exact sharedEntries_eq (hij ▸ getElem?_setIfInBounds_map h es)
  · rename_i hij
    simp only [sharedEntries, Array.getElem?_setIfInBounds_ne hij]

theorem agreeOff_setIfInBounds {i : Nat} (hi : S i) (hmap : isSharedMap t i = true) (es : Entries) :
    AgreeOff S t (t.setIfInBounds i (.map es)) where
  off j hj := by
    have hne : i ≠ j := by
      rintro rfl
      exact hj hi
    rw [Array.getElem?_setIfInBounds_ne hne]
  kind j := by
    by_cases hij : i = j
    · subst hij
      exact .inr ⟨hmap, (isSharedMap_setIfInBounds hmap es i).trans hmap⟩
    · rw [Array.getElem?_setIfInBounds_ne hij]
      exact .inl rfl

theorem closed_setIfInBounds {i : Nat} {es : Entries} (closed : Closed S t)
    (hes : S i → (Node.map es).Within S) : Closed S (t.setIfInBounds i (.map es)) := by
  intro j fs hj hfs
  by_cases hij : i = j
  · subst hij
    rw [Array.getElem?_setIfInBounds_self] at hfs
    split at hfs
    · cases hfs
      exact hes hj
    · cases hfs
  · rw [Array.getElem?_setIfInBounds_ne hij] at hfs
    exact closed j fs hj hfs

theorem within_step (closed : Closed S t) (hx : x.Within S) (hmap : isSharedMap t d.index = true) (hd : S d.index) :
    (Node.map (Entries.set t x d.path (sharedEntries t d.index)).1).Within S ∧
      ∀ d', (Entries.set t x d.path (sharedEntries t d.index)).2 = some d' → S d'.index := by
  obtain ⟨es, hes⟩ := isSharedMap_iff.mp hmap
  rw [sharedEntries_eq hes]
  exact Entries.within_set (closed _ _ hd hes) hx

/-- What each step of an update in the table keeps, the update keeps. -/
theorem setShared_keeps {Q : Array Node → Prop} {R : Detour → Prop}
    (step : ∀ t d, Q t → R d → isSharedMap t d.index = true →
      Q (t.setIfInBounds d.index (.map (Entries.set t x d.path (sharedEntries t d.index)).1)) ∧
        ∀ d', (Entries.set t x d.path (sharedEntries t d.index)).2 = some d' → R d')
    (ht : Q t) (hd : R d) (hmap : isSharedMap t d.index = true) : Q (setShared x t d) := by
  induction hlength : d.path.length using Nat.strongRecOn generalizing t d with
  | ind n ih =>
      rw [setShared_eq]
      obtain ⟨hstep, hrest⟩ := step t d ht hd hmap
      cases hnext : (Entries.set t x d.path (sharedEntries t d.index)).2 with
      | none => exact hstep
      | some d' =>
          have hshorter : d'.path.length < n := hlength ▸ Entries.detour_length hnext
          refine ih _ hshorter hstep (hrest d' hnext) ?_ rfl
          rw [isSharedMap_setIfInBounds hmap]
          exact Entries.isSharedMap_of_set hnext

theorem closed_setShared (closed : Closed S t) (hx : x.Within S) (hmap : isSharedMap t d.index = true) :
    Closed S (setShared x t d) := by
  refine setShared_keeps (R := fun _ => True) (fun t d ht _ hmap => ⟨?_, fun _ _ => trivial⟩) closed trivial hmap
  exact closed_setIfInBounds ht fun hd => (within_step ht hx hmap hd).1

theorem agreeOff_setShared (closed : Closed S t) (hx : x.Within S) (hmap : isSharedMap t d.index = true)
    (hd : S d.index) : AgreeOff S t (setShared x t d) := by
  refine (setShared_keeps (Q := fun u => Closed S u ∧ AgreeOff S t u) (R := fun d => S d.index) ?_
    ⟨closed, .refl S t⟩ hd hmap).2
  rintro u d ⟨hclosed, hagree⟩ hd hmap
  obtain ⟨hes, hrest⟩ := within_step hclosed hx hmap hd
  exact ⟨⟨closed_setIfInBounds hclosed fun _ => hes, hagree.trans (agreeOff_setIfInBounds hd hmap _)⟩, hrest⟩

theorem AgreeOff.setIfInBounds (h : AgreeOff S t t') {i : Nat} (hi : t[i]? = t'[i]?) (n : Node) :
    AgreeOff S (t.setIfInBounds i n) (t'.setIfInBounds i n) := by
  have hsame : (t.setIfInBounds i n)[i]? = (t'.setIfInBounds i n)[i]? := by
    have hsize : t.size ≤ i ↔ t'.size ≤ i := by
      rw [← Array.getElem?_eq_none_iff, ← Array.getElem?_eq_none_iff, hi]
    simp only [Array.getElem?_setIfInBounds_self, ← Nat.not_le, hsize]
  constructor
  · intro j hj
    by_cases hij : i = j
    · exact hij ▸ hsame
    · rw [Array.getElem?_setIfInBounds_ne hij, Array.getElem?_setIfInBounds_ne hij, h.off j hj]
  · intro j
    by_cases hij : i = j
    · exact .inl (hij ▸ hsame)
    · rw [Array.getElem?_setIfInBounds_ne hij, Array.getElem?_setIfInBounds_ne hij, isSharedMap, isSharedMap,
        Array.getElem?_setIfInBounds_ne hij, Array.getElem?_setIfInBounds_ne hij]
      exact h.kind j

theorem AgreeOff.setShared (h : AgreeOff S t t') (closed : Closed S t) (closed' : Closed S t') (hx : x.Within S)
    (hmap : isSharedMap t d.index = true) : AgreeOff S (Document.setShared x t d) (Document.setShared x t' d) := by
  induction hlength : d.path.length using Nat.strongRecOn generalizing t t' d with
  | ind n ih =>
      have hmap' : isSharedMap t' d.index = true := h.isSharedMap_eq d.index ▸ hmap
      by_cases hd : S d.index
      · exact ((agreeOff_setShared closed hx hmap hd).symm.trans h).trans (agreeOff_setShared closed' hx hmap' hd)
      -- Outside the region both find the same mapping, and go on alike.
      · have hsame := h.off d.index hd
        have hentries : sharedEntries t d.index = sharedEntries t' d.index := by
          rw [sharedEntries, sharedEntries, hsame]
        rw [setShared_eq, setShared_eq, ← hentries, ← Entries.set_congr h.isSharedMap_eq]
        have hstep := h.setIfInBounds hsame (.map (Entries.set t x d.path (sharedEntries t d.index)).1)
        cases hnext : (Entries.set t x d.path (sharedEntries t d.index)).2 with
        | none => exact hstep
        | some d' =>
            have hshorter : d'.path.length < n := hlength ▸ Entries.detour_length hnext
            refine ih _ hshorter hstep (closed_setIfInBounds closed (absurd · hd))
              (closed_setIfInBounds closed' (absurd · hd)) ?_ rfl
            rw [isSharedMap_setIfInBounds hmap]
            exact Entries.isSharedMap_of_set hnext

theorem isSharedMap_setShared (hmap : isSharedMap t d.index = true) (i : Nat) :
    isSharedMap (Document.setShared x t d) i = isSharedMap t i := by
  refine setShared_keeps (Q := fun u => isSharedMap u i = isSharedMap t i) (R := fun _ => True) ?_ rfl trivial hmap
  exact fun u d hu _ hmap => ⟨(isSharedMap_setIfInBounds hmap _ i).trans hu, fun _ _ => trivial⟩

section

variable {o : Option Detour}

theorem closed_follow (closed : Closed S t) (hx : x.Within S)
    (hmap : ∀ d, o = some d → isSharedMap t d.index = true) : Closed S (follow x t o) := by
  cases o with
  | none => exact closed
  | some d => exact closed_setShared closed hx (hmap d rfl)

theorem isSharedMap_follow (hmap : ∀ d, o = some d → isSharedMap t d.index = true) (i : Nat) :
    isSharedMap (follow x t o) i = isSharedMap t i := by
  cases o with
  | none => rfl
  | some d => exact isSharedMap_setShared (hmap d rfl) i

theorem agreeOff_follow (closed : Closed S t) (hx : x.Within S)
    (hmap : ∀ d, o = some d → isSharedMap t d.index = true) (hd : ∀ d, o = some d → S d.index) :
    AgreeOff S t (follow x t o) := by
  cases o with
  | none => exact .refl S t
  | some d => exact agreeOff_setShared closed hx (hmap d rfl) (hd d rfl)

theorem AgreeOff.follow (h : AgreeOff S t t') (closed : Closed S t) (closed' : Closed S t') (hx : x.Within S)
    (hmap : ∀ d, o = some d → isSharedMap t d.index = true) :
    AgreeOff S (Document.follow x t o) (Document.follow x t' o) := by
  cases o with
  | none => exact h
  | some d => exact h.setShared closed closed' hx (hmap d rfl)

end

end

end Document

end LedgerQuery
