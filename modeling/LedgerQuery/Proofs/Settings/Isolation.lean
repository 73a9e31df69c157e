import LedgerQuery.Proofs.Document.Isolation
import LedgerQuery.Proofs.Document.Local
import LedgerQuery.Proofs.Settings.Load

namespace LedgerQuery

open Document

namespace Document

/-- The node that says what a host is. -/
def Inside (d : Document) (host : String) (n : Node) : Prop := d.get? ["hosts", host] = some n

/-- The nodes that say what the other settings are: the version, the retry settings and the other hosts. -/
def Beside (d : Document) (host : String) (n : Node) : Prop :=
  (∃ key ∈ ["version", "retry"], d.get? [key] = some n) ∨
    ∃ es e, d.get? ["hosts"] = some (.map es) ∧ e ∈ es ∧ e.1 ≠ .text host ∧ e.2 = n

/-- The host is kept apart from the other settings: neither the document itself nor the mapping of the hosts stands
in a second place, and no mapping that the host leads to is one that another of the settings leads to. -/
structure Isolates (d : Document) (host : String) : Prop where
  root : ∀ i, d.root ≠ .shared i
  hosts : ∀ i, d.get? ["hosts"] ≠ some (.shared i)
  apart : ∀ n m i, d.Inside host n → d.Beside host m → n.Leads d.table i → ¬m.Leads d.table i

end Document

mutual

/-- Whether all references below the node, as far as mappings go, are to indices of one kind. -/
def Node.refers (kind : Nat → Bool) (b : Bool) : Node → Bool
  | .leaf _ | .list _ => true
  | .map entries => refersEntries kind b entries
  | .shared index => kind index == b

def Node.refersEntries (kind : Nat → Bool) (b : Bool) : List (Scalar × Node) → Bool
  | [] => true
  | e :: es => refersEntry kind b e && refersEntries kind b es

def Node.refersEntry (kind : Nat → Bool) (b : Bool) : Scalar × Node → Bool
  | (_, n) => n.refers kind b

end

section

variable {kind : Nat → Bool} {b : Bool}

mutual

theorem Node.within_of_refers : ∀ {n : Node}, n.refers kind b = true → n.Within fun i => kind i = b
  | .leaf s, _ => .leaf s
  | .list items, _ => .list items
  | .map _, h => .map fun _ he => within_of_refersEntries h he
  | .shared _, h => .shared (eq_of_beq h)

theorem Node.within_of_refersEntries : ∀ {es : List (Scalar × Node)} {e : Scalar × Node},
    refersEntries kind b es = true → e ∈ es → e.2.Within fun i => kind i = b
  | (_, _) :: _, _, h, .head _ => within_of_refers (Bool.and_eq_true_iff.mp h).1
  | _ :: _, _, h, .tail _ he => within_of_refersEntries (Bool.and_eq_true_iff.mp h).2 he

end

end

namespace Document

def splits (kind : Nat → Bool) (host : String) (d : Document) : Bool :=
  !(d.root matches .shared _) && (d.get? ["hosts", host]).all (Node.refers kind true) &&
    ["version", "retry"].all (fun key => (d.get? [key]).all (Node.refers kind false)) &&
    (match d.get? ["hosts"] with
      | some (.map es) => es.all fun e => e.1 = .text host || e.2.refers kind false
      | some (.shared _) => false
      | _ => true) &&
    (List.range d.table.size).all fun i => match d.table[i]? with
      | some (.map es) => (Node.map es).refers kind (kind i)
      | _ => true

theorem closed_of_refers {kind : Nat → Bool} {table : Array Node}
    (h : ∀ i es, table[i]? = some (.map es) → (Node.map es).refers kind (kind i) = true) (b : Bool) :
    Closed (fun i => kind i = b) table := by
  rintro i es rfl found
  exact Node.within_of_refers (h i es found)

theorem isolates_of_splits {kind : Nat → Bool} {host : String} {d : Document} (h : d.splits kind host = true) :
    d.Isolates host := by
  simp only [splits, Bool.and_eq_true] at h
  obtain ⟨⟨⟨⟨hroot, hinside⟩, hsettings⟩, hhosts⟩, htable⟩ := h
  have closed (b : Bool) : Closed (fun i => kind i = b) d.table := closed_of_refers (fun i es found => by
    have hi := List.all_eq_true.mp htable i (List.mem_range.mpr (Array.getElem?_eq_some_iff.mp found).1)
    rwa [found] at hi) b
  have beside {m} (hm : d.Beside host m) : m.refers kind false = true := by
    obtain ⟨key, hkey, hget⟩ | ⟨es, e, hget, he, hne, rfl⟩ := hm
    · have hall := List.all_eq_true.mp hsettings key hkey
      rwa [hget] at hall
    · rw [hget] at hhosts
      exact (Bool.or_eq_true_iff.mp (List.all_eq_true.mp hhosts e he)).resolve_left fun heq =>
        hne (of_decide_eq_true heq)
  refine ⟨fun i hi => ?_, fun i hi => ?_, fun n m i hn hm hnleads hmleads => ?_⟩
  · rw [hi] at hroot
    cases hroot
  · rw [hi] at hhosts
    cases hhosts
  · rw [Inside] at hn
    rw [hn] at hinside
    have htrue := hnleads.mem_of_within (Node.within_of_refers hinside) (closed true)
    have hfalse := hmleads.mem_of_within (Node.within_of_refers (beside hm)) (closed false)
    cases htrue.symm.trans hfalse

end Document

structure Settings.SameOff (host : String) (a b : Settings) : Prop where
  version : a.version = b.version
  retry : a.retry = b.retry
  hosts : a.hosts.filter (fun e => e.1 ≠ host) = b.hosts.filter fun e => e.1 ≠ host

theorem Settings.SameOff.refl (host : String) (a : Settings) : a.SameOff host a := ⟨rfl, rfl, rfl⟩

namespace Rooted

variable {I O : Nat → Prop} {host : String} {r r' : Rooted}

theorem Apart.agreeOn (h : Apart I O host r) (alike : AlikeOff I host r r') : AgreeOn O r.table r'.table where
  closed := h.outer
  same i hi := by
    obtain heq | ⟨hmap, -⟩ := alike.table.kind i
    · exact heq
    · exact alike.table.off i fun hI => h.disjoint i hmap hI hi

theorem hosts_read {α ρ : Type} {s : Shape α} {get : ρ → List (String × α)} {m : List (String × α)}
    (inline : ∀ i, r.entries.get? (.text "hosts") ≠ some (.shared i))
    (h : (Fields.required "hosts" s.map get).read (r.entries.views r.table) = .ok m) :
    s.map.read (View.mk r.table (.map r.hosts)) = .ok m := by
  simp only [Fields.required, valueUnder?_views] at h
  cases hx : r.entries.get? (.text "hosts") with
  | none =>
      rw [hx] at h
      cases h
  | some x =>
      rw [hx] at h
      have hread := Reading.under_eq_ok.mp h
      obtain ⟨es, hes⟩ := Shape.resolve_of_map_read hread
      cases x with
      | map inner => rwa [hosts, Entries.below, hx]
      | shared i => exact absurd hx (inline i)
      | _ => cases hes

theorem Apart.sameOff (h : Apart I O host r) (h' : Apart I O host r') (alike : AlikeOff I host r r')
    {a b : Settings} (ha : Settings.shape.read r.document.view = .ok a)
    (hb : Settings.shape.read r'.document.view = .ok b) : a.SameOff host b := by
  have agree := h.agreeOn alike
  have hget {key : String} (hkey : key ≠ "hosts") : r.entries.get? (.text key) = r'.entries.get? (.text key) := by
    rw [← Entries.get?_off hkey, alike.entries, Entries.get?_off hkey]
  obtain ⟨_, retry, h₁, hretry, rfl⟩ := Fields.seq_read.mp ha
  obtain ⟨_, hosts, h₂, hhosts, rfl⟩ := Fields.seq_read.mp h₁
  obtain ⟨version, hversion, rfl⟩ := Fields.map_read.mp h₂
  obtain ⟨_, retry', h₁, hretry', rfl⟩ := Fields.seq_read.mp hb
  obtain ⟨_, hosts', h₂, hhosts', rfl⟩ := Fields.seq_read.mp h₁
  obtain ⟨version', hversion', rfl⟩ := Fields.map_read.mp h₂
  refine ⟨?_, ?_, ?_⟩
  · have hsame := Fields.required_congr Shape.int_local agree (hget (by decide)) (h.settings "version" (by decide))
      Settings.version
    exact Except.ok.inj (hversion.symm.trans (hsame.trans hversion'))
  · have hsame := Fields.withDefault_congr RetrySettings.shape_local agree (hget (by decide))
      (h.settings "retry" (by decide)) .default Settings.retry
    exact Except.ok.inj (hretry.symm.trans (hsame.trans hretry'))
  · exact HostSettings.shape_local.map_off agree alike.hosts h.others (hosts_read h.inline hhosts)
      (hosts_read h'.inline hhosts')

theorem get?_hosts {e : Scalar × Node} (h : e ∈ r.hosts) : r.entries.get? (.text "hosts") = some (.map r.hosts) := by
  rw [hosts, Entries.below] at h ⊢
  split at h
  · assumption
  · cases h

theorem apart_of_isolates (h : r.document.Isolates host) :
    Apart (span r.table (r.document.Inside host)) (span r.table (r.document.Beside host)) host r := by
  have hroot (key : String) : r.document.get? [key] = r.entries.get? (.text key) := Option.bind_fun_some _
  refine ⟨closed_span, closed_span, fun i hi hI hO => ?_, fun i => hroot "hosts" ▸ h.hosts i, fun n hn => ?_,
    .map fun e he => ?_, fun key hkey n hn => ?_⟩
  · obtain ⟨n, hn, hnleads⟩ := hI hi
    obtain ⟨m, hm, hmleads⟩ := hO hi
    exact h.apart n m i hn hm hnleads hmleads
  · have hhosts := (hroot "hosts").trans (get?_hosts (Entries.text_mem_of_get? hn))
    refine within_span ((nodeAt?_append ["hosts"] [host] r.document.root).trans ?_)
    rw [← get?, hhosts, Option.bind_some, nodeAt?_map, hn]
    rfl
  · obtain ⟨hmem, hne⟩ := List.mem_filter.mp he
    have hhosts := (hroot "hosts").trans (get?_hosts hmem)
    exact within_span (.inr ⟨r.hosts, e, hhosts, hmem, of_decide_eq_true hne, rfl⟩)
  · exact within_span (.inl ⟨key, hkey, (hroot key).trans hn⟩)

theorem apart_empty (host : String) : Apart (fun _ => True) (fun _ => True) host ⟨[], #[]⟩ where
  inner := nofun
  outer := nofun
  disjoint := nofun
  inline := nofun
  own := nofun
  others := .map (List.forall_mem_nil _)
  settings := nofun

end Rooted

namespace Settings

variable {path path' : String} {lead : Option String} {env : Environment} {d : Document} {settings a b : Settings}

theorem read_of_ofDocument {r : Rooted} (hr : (if d.isVoid then .ofNode (.map []) else d) = r.document)
    (h : ofDocument path lead env d = .ok settings) :
    shape.read (r.overlay (assignments lead env)).document.view = .ok settings := by
  simp only [ofDocument, hr] at h
  split at h
  · cases h
  · have hread := (ofEntries_eq_ok.mp h).2
    split at hread
    · exact hread
    · exact hread
    · rename_i hne
      rw [Rooted.override_document] at hread
      rwa [assignments]
      exact hne

theorem exists_apart {host : String} (isolates : d.Isolates host) (h : ofDocument path lead env d = .ok settings) :
    ∃ (I O : Nat → Prop) (r : Rooted), r.Apart I O host ∧ (if d.isVoid then .ofNode (.map []) else d) = r.document := by
  cases hvoid : d.isVoid with
  | true => exact ⟨_, _, _, Rooted.apart_empty host, rfl⟩
  | false =>
      simp only [ofDocument, hvoid] at h
      obtain ⟨root, table⟩ := d
      cases root with
      | map es => exact ⟨_, _, ⟨es, table⟩, Rooted.apart_of_isolates isolates, rfl⟩
      | shared i => exact absurd rfl (isolates.root i)
      | _ => cases h

theorem assignments_insert {lead name : String} {below : List String}
    (h : (Naming.usual lead).path? name = some below) (before after : Environment) (value : String) :
    assignments (some lead) (before ++ (name, value) :: after) = assignments (some lead) (before ++ after) ∨
      ∃ vars vars', assignments (some lead) (before ++ after) = vars ++ vars' ∧
        assignments (some lead) (before ++ (name, value) :: after) = vars ++ (below, value) :: vars' := by
  by_cases hlead : lead = ""
  · subst hlead
    exact .inl rfl
  · have hassignments (env : Environment) : assignments (some lead) env = (Naming.usual lead).assignments env := by
      rw [assignments]
      exact hlead
    refine .inr ⟨(Naming.usual lead).assignments before, (Naming.usual lead).assignments after, ?_, ?_⟩
    · rw [hassignments, Naming.assignments, List.filterMap_append]
      rfl
    · rw [hassignments, Naming.assignments, List.filterMap_append, List.filterMap_cons, h]
      rfl

/-- One variable more for a host that the document isolates: all but the host is loaded as without it. -/
theorem sameOff_of_ofDocument {lead name host : String} {rest : List String} {before after : Environment}
    {value : String} (isolates : d.Isolates host)
    (hname : (Naming.usual lead).path? name = some ("hosts" :: host :: rest))
    (ha : ofDocument path (some lead) (before ++ after) d = .ok a)
    (hb : ofDocument path' (some lead) (before ++ (name, value) :: after) d = .ok b) : a.SameOff host b := by
  obtain ⟨I, O, r, apart, hr⟩ := exists_apart isolates ha
  have hread := read_of_ofDocument hr ha
  have hread' := read_of_ofDocument hr hb
  obtain heq | ⟨vars, vars', hvars, hvars'⟩ := assignments_insert hname before after value
  · rw [heq, hread] at hread'
    cases hread'
    exact .refl host a
  · have alike := apart.alikeOff vars vars' rest value
    rw [hvars] at hread
    rw [hvars'] at hread'
    exact (apart.after_all _).sameOff (apart.after_all _) alike hread hread'

end Settings

namespace SettingsQuery

/-- One variable more for a host that the file isolates: all but the host is loaded as without it. -/
theorem load_isolated {q : SettingsQuery} {fs : Files} (before after : Environment) {lead name value host : String}
    {rest : List String} {a b : LoadedSettings} (hlead : q.lead = some lead)
    (hname : (Naming.usual lead).path? name = some ("hosts" :: host :: rest))
    (ha : q.load fs (before ++ after) = .ok a) (hb : q.load fs (before ++ (name, value) :: after) = .ok b) :
    ∃ text d, q.text? fs = some text ∧ Yaml.read text = .ok d ∧
      (d.Isolates host → a.settings.SameOff host b.settings) := by
  obtain ⟨text, d, path, htext, hread, hload⟩ := exists_of_load ha
  obtain ⟨text', d', path', htext', hread', hload'⟩ := exists_of_load hb
  obtain rfl : text = text' := Option.some.inj (htext.symm.trans htext')
  obtain rfl : d = d' := Except.ok.inj (hread.symm.trans hread')
  rw [hlead] at hload hload'
  refine ⟨text, d, htext, hread, fun isolates => ?_⟩
  exact Settings.sameOff_of_ofDocument isolates hname hload hload'

def privateText : String := "version: 1\nx: &t \x7bverify_tls: false\x7d\nhosts:\n" ++
  "  a: \x7bbase_url: http://a, transport: *t\x7d\n" ++
  "  b: \x7bbase_url: http://b\x7d\n"

def commonText : String := "version: 1\nhosts:\n" ++
  "  a: \x7bbase_url: http://a, transport: &t \x7bconnect_timeout_seconds: 3\x7d\x7d\n" ++
  "  b: \x7bbase_url: http://b, transport: *t\x7d\n"

def connectVariable : String × String := ("APP__HOSTS__A__TRANSPORT__CONNECT_TIMEOUT_SECONDS", "7")

theorem path?_connectVariable : (Naming.usual "APP").path? connectVariable.1 =
    some ["hosts", "a", "transport", "connect_timeout_seconds"] := by decide +kernel

theorem private_isolated : ∃ a b, sole.load (soleFile privateText) [] = .ok a ∧
    sole.load (soleFile privateText) [connectVariable] = .ok b ∧ a.settings.SameOff "a" b.settings ∧
      a.settings.hosts ≠ b.settings.hosts := by
  obtain ⟨a, ha, hhosts⟩ := exists_of_toOption (show
    (sole.load (soleFile privateText) []).toOption.map (·.settings.hosts) =
      some [("a", ⟨"http://a", [], ⟨15, 5, false⟩⟩), ("b", ⟨"http://b", [], .default⟩)] by decide +kernel)
  obtain ⟨b, hb, hhosts'⟩ := exists_of_toOption (show
    (sole.load (soleFile privateText) [connectVariable]).toOption.map (·.settings.hosts) =
      some [("a", ⟨"http://a", [], ⟨15, 7, false⟩⟩), ("b", ⟨"http://b", [], .default⟩)] by decide +kernel)
  obtain ⟨d', hd', hsplits⟩ := exists_of_toOption (show
    (Yaml.read privateText.toList).toOption.map (splits (· == 0) "a") = some true by decide +kernel)
  obtain ⟨text, d, htext, hread, hsame⟩ :=
    load_isolated [] [] (rfl : sole.lead = some "APP") path?_connectVariable ha hb
  have hsole : sole.text? (soleFile privateText) = some privateText.toList := by decide +kernel
  obtain rfl : privateText.toList = text := Option.some.inj (hsole.symm.trans htext)
  obtain rfl : d' = d := Except.ok.inj (hd'.symm.trans hread)
  exact ⟨a, b, ha, hb, hsame (isolates_of_splits hsplits), hhosts ▸ hhosts' ▸ by decide⟩

/-- The variable for the first of the two hosts changes the settings of the second. -/
theorem common_not_isolated : ∃ a b, sole.load (soleFile commonText) [] = .ok a ∧
    sole.load (soleFile commonText) [connectVariable] = .ok b ∧
      (Naming.usual "APP").path? connectVariable.1 = some ["hosts", "a", "transport", "connect_timeout_seconds"] ∧
        ¬a.settings.SameOff "a" b.settings := by
  obtain ⟨a, ha, hhosts⟩ := exists_of_toOption (show
    (sole.load (soleFile commonText) []).toOption.map (·.settings.hosts) =
      some [("a", ⟨"http://a", [], ⟨15, 3, true⟩⟩), ("b", ⟨"http://b", [], ⟨15, 3, true⟩⟩)] by decide +kernel)
  obtain ⟨b, hb, hhosts'⟩ := exists_of_toOption (show
    (sole.load (soleFile commonText) [connectVariable]).toOption.map (·.settings.hosts) =
      some [("a", ⟨"http://a", [], ⟨15, 7, true⟩⟩), ("b", ⟨"http://b", [], ⟨15, 7, true⟩⟩)] by decide +kernel)
  refine ⟨a, b, ha, hb, path?_connectVariable, fun hsame => ?_⟩
  have hothers := hsame.hosts
  rw [hhosts, hhosts'] at hothers
  revert hothers
  decide

end SettingsQuery

end LedgerQuery
