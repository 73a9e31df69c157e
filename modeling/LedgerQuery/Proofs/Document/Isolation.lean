import LedgerQuery.Proofs.Document.Sharing
import LedgerQuery.Proofs.Settings.Override

namespace LedgerQuery

/-- A document with a mapping at the root, which the table does not refer to. -/
structure Rooted where
  entries : Entries
  table : Array Node

namespace Rooted

def document (r : Rooted) : Document := ⟨.map r.entries, r.table⟩

def set (x : Node) (path : List String) (r : Rooted) : Rooted :=
  ⟨(Entries.set r.table x path r.entries).1, Document.follow x r.table (Entries.set r.table x path r.entries).2⟩

def overlay (vars : Assignments) (r : Rooted) : Rooted :=
  vars.foldl (fun r var => r.set (.leaf (.text var.2)) var.1) r

def hosts (r : Rooted) : Entries := r.entries.below "hosts"

theorem set_document (x : Node) (path : List String) (r : Rooted) : r.document.set x path = (r.set x path).document := by
  simp only [document, Document.set, set]
  generalize Entries.set r.table x path r.entries = step
  obtain ⟨es, rest⟩ := step
  cases rest <;> rfl

theorem override_document (naming : Naming) (env : Environment) (r : Rooted) :
    r.document.override naming env = (r.overlay (naming.assignments env)).document := by
  induction env generalizing r with
  | nil => rfl
  | cons var env ih =>
      rw [Document.override, List.foldl_cons, ← Document.override, Document.applyVariable, Naming.assignments,
        List.filterMap_cons]
      cases naming.path? var.1 with
      | none => exact ih r
      | some path =>
          simp only [Option.map_some]
          rw [set_document]
          exact ih _

/-- The host refers to one region, and what is read beside it, in the named settings and in the other hosts, to
another. -/
structure Apart (I O : Nat → Prop) (host : String) (r : Rooted) : Prop where
  inner : Document.Closed I r.table
  outer : Document.Closed O r.table
  disjoint : ∀ i, isSharedMap r.table i = true → I i → ¬O i
  inline : ∀ i, r.entries.get? (.text "hosts") ≠ some (.shared i)
  own : ∀ n, r.hosts.get? (.text host) = some n → n.Within I
  others : (Node.map (r.hosts.off host)).Within O
  settings : ∀ key ∈ ["version", "retry"], ∀ n, r.entries.get? (.text key) = some n → n.Within O

/-- Two documents that are alike but for the host. -/
structure AlikeOff (I : Nat → Prop) (host : String) (r r' : Rooted) : Prop where
  table : Document.AgreeOff I r.table r'.table
  entries : r.entries.off "hosts" = r'.entries.off "hosts"
  hosts : r.hosts.off host = r'.hosts.off host

section

variable {I O : Nat → Prop} {host : String} {r r' r'' : Rooted} {text : String}

theorem AlikeOff.symm (h : AlikeOff I host r r') : AlikeOff I host r' r :=
  ⟨h.table.symm, h.entries.symm, h.hosts.symm⟩

theorem AlikeOff.trans (h : AlikeOff I host r r') (h' : AlikeOff I host r' r'') : AlikeOff I host r r'' :=
  ⟨h.table.trans h'.table, h.entries.trans h'.entries, h.hosts.trans h'.hosts⟩

section

variable {x : Node} {rest : List String}

theorem set_hosts (inline : ∀ i, r.entries.get? (.text "hosts") ≠ some (.shared i)) (key : String) :
    r.set x ("hosts" :: key :: rest) =
      ⟨r.entries.put (.text "hosts") (.map (Entries.set r.table x (key :: rest) r.hosts).1),
        Document.follow x r.table (Entries.set r.table x (key :: rest) r.hosts).2⟩ := by
  have hway : r.entries.detour? r.table "hosts" = none := by
    rw [← Option.not_isSome_iff_eq_none, Option.isSome_iff_exists]
    rintro ⟨i, hi⟩
    exact inline i (Entries.detour?_eq_some hi).1
  rw [set, Entries.set_of_way hway]
  rfl

theorem hosts_put (es : Entries) (t : Array Node) (x : Node) :
    (Rooted.mk (es.put (.text "hosts") x) t).hosts = match x with
      | .map inner => inner
      | _ => [] := by
  rw [hosts, Entries.below, Entries.get?_put_self]
  cases x <;> rfl

theorem hosts_set_hosts (inline : ∀ i, r.entries.get? (.text "hosts") ≠ some (.shared i)) (key : String) :
    (r.set x ("hosts" :: key :: rest)).hosts = (Entries.set r.table x (key :: rest) r.hosts).1 := by
  rw [set_hosts inline, hosts_put]

theorem hosts_set_leaf (s : Scalar) : (r.set (.leaf s) ["hosts"]).hosts = [] := hosts_put _ _ _

theorem off_set_hosts (rest : List String) : (r.set x ("hosts" :: rest)).entries.off "hosts" = r.entries.off "hosts" :=
  Entries.off_set_self "hosts" rest

theorem hosts_set_of_ne {key : String} (h : key ≠ "hosts") : (r.set x (key :: rest)).hosts = r.hosts :=
  Entries.below_congr (Entries.get?_set_of_ne h rest)

theorem hosts_set_cases (inline : ∀ i, r.entries.get? (.text "hosts") ≠ some (.shared i)) (s : Scalar)
    (path : List String) :
    (r.set (.leaf s) path).hosts = r.hosts ∨ (r.set (.leaf s) path).hosts = [] ∨
      ∃ name rest, (r.set (.leaf s) path).hosts = (Entries.set r.table (.leaf s) (name :: rest) r.hosts).1 := by
  cases path with
  | nil => exact .inl rfl
  | cons key rest =>
      by_cases hkey : key = "hosts"
      · subst hkey
        cases rest with
        | nil => exact .inr (.inl (hosts_set_leaf s))
        | cons name rest => exact .inr (.inr ⟨name, rest, hosts_set_hosts inline name⟩)
      · exact .inl (hosts_set_of_ne hkey)

theorem inline_set (inline : ∀ i, r.entries.get? (.text "hosts") ≠ some (.shared i)) (s : Scalar)
    (path : List String) (i : Nat) : (r.set (.leaf s) path).entries.get? (.text "hosts") ≠ some (.shared i) := by
  intro hi
  cases path with
  | nil => exact inline i hi
  | cons key rest =>
      by_cases hkey : key = "hosts"
      · subst hkey
        cases rest with
        | nil =>
            rw [set, Entries.set_last, Entries.get?_put_self] at hi
            cases hi
        | cons name rest =>
            rw [set_hosts inline, Entries.get?_put_self] at hi
            cases hi
      · rw [set, Entries.get?_set_of_ne hkey] at hi
        exact inline i hi

end

theorem Apart.after (h : Apart I O host r) (path : List String) : Apart I O host (r.set (.leaf (.text text)) path) := by
  have hx (S : Nat → Prop) : (Node.leaf (.text text)).Within S := .leaf _
  have hmap (d) (hd : (Entries.set r.table (.leaf (.text text)) path r.entries).2 = some d) :
      isSharedMap r.table d.index = true := Entries.isSharedMap_of_set hd
  have hcases := hosts_set_cases h.inline (.text text) path
  refine ⟨Document.closed_follow h.inner (hx I) hmap, Document.closed_follow h.outer (hx O) hmap, fun i hi => ?_,
    inline_set h.inline (.text text) path, fun n hn => ?_, ?_, fun key hkey n hn => ?_⟩
  · rw [set, Document.isSharedMap_follow hmap] at hi
    exact h.disjoint i hi
  · obtain heq | heq | ⟨name, rest, heq⟩ := hcases
    · exact h.own n (heq ▸ hn)
    · rw [heq] at hn
      cases hn
    · rw [heq] at hn
      exact Entries.within_get?_set h.own (hx I) hn
  · obtain heq | heq | ⟨name, rest, heq⟩ := hcases
    · exact heq ▸ h.others
    · exact heq ▸ .map (List.forall_mem_nil _)
    · exact heq ▸ Entries.within_off_set h.others (hx O)
  · exact Entries.within_get?_set (h.settings key hkey) (hx O) hn

theorem Apart.set_below (h : Apart I O host r) (rest : List String) :
    AlikeOff I host r (r.set (.leaf (.text text)) ("hosts" :: host :: rest)) := by
  have hmap (d) (hd : (Entries.set r.table (.leaf (.text text)) (host :: rest) r.hosts).2 = some d) :
      isSharedMap r.table d.index = true := Entries.isSharedMap_of_set hd
  -- The way goes on in the table, if it does, where the host refers to.
  have hregion (d) (hd : (Entries.set r.table (.leaf (.text text)) (host :: rest) r.hosts).2 = some d) :
      I d.index := by
    cases rest with
    | nil => cases hd
    | cons next rest =>
        cases hdetour : r.hosts.detour? r.table host with
        | some i =>
            rw [Entries.set_of_detour hdetour] at hd
            cases hd
            cases h.own _ (Entries.detour?_eq_some hdetour).1 with
            | shared mem => exact mem
        | none =>
            rw [Entries.set_of_way hdetour] at hd
            exact (Entries.within_set (Entries.within_below h.own) (.leaf _)).2 d hd
  refine ⟨?_, ?_, ?_⟩
  · rw [set_hosts h.inline]
    exact Document.agreeOff_follow h.inner (.leaf _) hmap hregion
  · exact (off_set_hosts (host :: rest)).symm
  · rw [hosts_set_hosts h.inline]
    exact (Entries.off_set_self host rest).symm

theorem AlikeOff.after (alike : AlikeOff I host r r') (h : Apart I O host r) (h' : Apart I O host r')
    (path : List String) :
    AlikeOff I host (r.set (.leaf (.text text)) path) (r'.set (.leaf (.text text)) path) := by
  have kind := alike.table.isSharedMap_eq
  cases path with
  | nil => exact alike
  | cons key rest =>
      by_cases hkey : key = "hosts"
      · subst hkey
        cases rest with
        | nil =>
            refine ⟨alike.table, ?_, ?_⟩
            · rw [off_set_hosts, off_set_hosts, alike.entries]
            · rw [hosts_set_leaf, hosts_set_leaf]
        | cons name rest =>
            by_cases hname : name = host
            · subst hname
              exact ((h.set_below rest).symm.trans alike).trans (h'.set_below rest)
            · -- Below another host both find the same, since what differs stands under the host.
              obtain ⟨hhosts, hrest⟩ := Entries.set_alike kind alike.hosts hname rest
              refine ⟨?_, ?_, ?_⟩
              · rw [set_hosts h.inline, set_hosts h'.inline, ← hrest]
                exact alike.table.follow h.inner h'.inner (.leaf _) fun d hd => Entries.isSharedMap_of_set hd
              · rw [off_set_hosts, off_set_hosts, alike.entries]
              · rw [hosts_set_hosts h.inline, hosts_set_hosts h'.inline]
                exact hhosts
      · obtain ⟨hentries, hrest⟩ := Entries.set_alike kind alike.entries hkey rest
        refine ⟨?_, hentries, ?_⟩
        · rw [set, set, ← hrest]
          exact alike.table.follow h.inner h'.inner (.leaf _) fun d hd => Entries.isSharedMap_of_set hd
        · rw [hosts_set_of_ne hkey, hosts_set_of_ne hkey]
          exact alike.hosts

theorem Apart.after_all (h : Apart I O host r) (vars : Assignments) : Apart I O host (r.overlay vars) := by
  induction vars generalizing r with
  | nil => exact h
  | cons var vars ih => exact ih (h.after var.1)

theorem AlikeOff.after_all (alike : AlikeOff I host r r') (h : Apart I O host r) (h' : Apart I O host r')
    (vars : Assignments) : AlikeOff I host (r.overlay vars) (r'.overlay vars) := by
  induction vars generalizing r r' with
  | nil => exact alike
  | cons var vars ih => exact ih (alike.after h h' var.1) (h.after var.1) (h'.after var.1)

/-- One more variable for the host, somewhere among the variables, makes no difference off the host. -/
theorem Apart.alikeOff (h : Apart I O host r) (before after : Assignments) (rest : List String) (text : String) :
    AlikeOff I host (r.overlay (before ++ after))
      (r.overlay (before ++ ("hosts" :: host :: rest, text) :: after)) := by
  have hbefore := h.after_all before
  rw [Rooted.overlay, Rooted.overlay, List.foldl_append, List.foldl_append, List.foldl_cons]
  exact (hbefore.set_below rest).after_all hbefore (hbefore.after _) after

end

end Rooted

end LedgerQuery
