import LedgerQuery.Settings.Load
import LedgerQuery.Proofs.Document.Reading
import LedgerQuery.Proofs.Settings.Override

namespace LedgerQuery

open Document

variable {α : Type}

structure TransportSettings.Fieldwise (P : ∀ {α : Type}, Shape α → Option α → String → α → Prop)
    (t : TransportSettings) : Prop where
  requestTimeout : P .int (some 15) "request_timeout_seconds" t.requestTimeout
  connectTimeout : P .int (some 5) "connect_timeout_seconds" t.connectTimeout
  verifyTls : P .bool (some true) "verify_tls" t.verifyTls

structure RetrySettings.Fieldwise (P : ∀ {α : Type}, Shape α → Option α → String → α → Prop)
    (r : RetrySettings) : Prop where
  maxElapsed : P (Shape.float.atLeast 0).optional (some (some 60.0)) "max_elapsed_seconds" r.maxElapsed
  maxRetries : P (Shape.int.atLeast 0) (some 5) "max_retries" r.maxRetries
  initialInterval : P (Shape.float.atLeast 0) (some 0.5) "initial_interval_seconds" r.initialInterval
  multiplier : P (Shape.float.atLeast 1) (some 1.5) "multiplier" r.multiplier
  randomizationFactor :
    P ((Shape.float.atMost 1).atLeast 0) (some 0.5) "randomization_factor" r.randomizationFactor
  maxInterval : P (Shape.float.atLeast 0) (some 10.0) "max_interval_seconds" r.maxInterval

/-- The value of the setting at a path: what the variable for the path says, if there is one; else what the
document has there; else the default. -/
inductive Settled (vars : Assignments) (d : Document) (s : Shape α) (usual : Option α) (path : List String)
    (a : α) : Prop
  | override {text : String} (assigned : (path, text) ∈ vars) (read : s.read (Json.string text) = .ok a)
  | file {n : Node} (free : ∀ text, (path, text) ∉ vars) (found : d.get? path = some n)
      (read : s.read (View.mk d.table n) = .ok a)
  | default (free : ∀ text, (path, text) ∉ vars) (absent : d.get? path = none) (usual : usual = some a)

/-- A name that the document has at the end of a path, or that a variable's path leads through. -/
def Named (vars : Assignments) (d : Document) (path : List String) : Prop :=
  (d.get? path).isSome = true ∨ ∃ v ∈ vars, path <+: v.1

/-- No key of the mapping at a path, if there is one, is given as bytes. -/
def Document.Unencoded (d : Document) (path : List String) : Prop :=
  ∀ es, d.get? path = some (.map es) → ∀ k ∈ es.map (·.1), ∀ bs, k ≠ .bytes bs

structure HostSettings.Precedence (vars : Assignments) (d : Document) (name : String) (host : HostSettings) :
    Prop where
  baseUrl : Settled vars d (Shape.text.checked checkBaseUrl) none ["hosts", name, "base_url"] host.baseUrl
  header : ∀ key value, (key, value) ∈ host.headers →
    Settled vars d .text none ["hosts", name, "headers", key] value
  headers : ∀ key, key ∈ host.headers.map (·.1) ↔ Named vars d ["hosts", name, "headers", key]
  distinct : (host.headers.map (·.1)).Nodup
  transport : host.transport.Fieldwise fun s usual key =>
    Settled vars d s usual ["hosts", name, "transport", key]

structure Settings.Precedence (vars : Assignments) (d : Document) (settings : Settings) : Prop where
  version : Settled vars d .int none ["version"] settings.version
  retry : settings.retry.Fieldwise fun s usual key => Settled vars d s usual ["retry", key]
  host : ∀ name host, (name, host) ∈ settings.hosts → host.Precedence vars d name
  hosts : ∀ name, name ∈ settings.hosts.map (·.1) ↔ Named vars d ["hosts", name]
  distinct : (settings.hosts.map (·.1)).Nodup

structure Shape.Flat (s : Shape α) : Prop where
  read_map : ∀ (table : Array Node) (es : Entries) (a : α), s.read (View.mk table (.map es)) ≠ .ok a
  read_text : ∀ (table : Array Node) (text : String),
    s.read (View.mk table (.leaf (.text text))) = s.read (Json.string text)

namespace Shape

theorem text_flat : text.Flat := ⟨nofun, fun _ _ => rfl⟩

theorem int_flat : int.Flat := ⟨nofun, fun _ _ => by unfold int; rfl⟩

theorem bool_flat : bool.Flat := ⟨nofun, fun _ _ => by unfold bool; rfl⟩

theorem float_flat : float.Flat := ⟨nofun, fun _ _ => by unfold float; rfl⟩

theorem Flat.checked {s : Shape α} (h : s.Flat) (rule : α → Except FaultKind α) : (s.checked rule).Flat where
  read_map table es a hread := by
    simp only [Shape.checked] at hread
    split at hread
    · exact h.read_map table es _ (by assumption)
    · cases hread
  read_text table text := by simp only [Shape.checked, h.read_text]

theorem Flat.optional {s : Shape α} (h : s.Flat) : s.optional.Flat where
  read_map table es a hread := by
    change (s.read (View.mk table (.map es))).map some = .ok a at hread
    cases hs : s.read (View.mk table (.map es)) with
    | ok b => exact h.read_map table es b hs
    | error fs =>
        rw [hs] at hread
        cases hread
  read_text table text := congrArg (Except.map some) (h.read_text table text)

theorem Flat.atLeast [LE α] [DecidableLE α] {s : Shape α} (h : s.Flat) (bound : α) : (s.atLeast bound).Flat :=
  h.checked _

theorem Flat.atMost [LE α] [DecidableLE α] {s : Shape α} (h : s.Flat) (bound : α) : (s.atMost bound).Flat :=
  h.checked _

end Shape

section

variable {table : Array Node} {n : Node} {path : List String}

theorem TransportSettings.fieldwise_of_readsAt {t : TransportSettings} (hn : n.Tree)
    (h : ReadsAt table n shape (some .default) path t) :
    t.Fieldwise fun s usual key => ReadsAt table n s usual (path ++ [key]) := by
  obtain ⟨es, hes, h₀⟩ | ⟨hnone, heq⟩ := h.record hn
  · obtain ⟨_, verifyTls, h₁, hverifyTls, rfl⟩ := Fields.seq_read.mp h₀
    obtain ⟨_, connectTimeout, h₂, hconnectTimeout, rfl⟩ := Fields.seq_read.mp h₁
    obtain ⟨requestTimeout, hrequestTimeout, rfl⟩ := Fields.map_read.mp h₂
    exact {
      requestTimeout := readsAt_withDefault hes hrequestTimeout
      connectTimeout := readsAt_withDefault hes hconnectTimeout
      verifyTls := readsAt_withDefault hes hverifyTls }
  · cases heq
    have hfield (key : String) := nodeAt?_concat_of_none hnone key
    exact {
      requestTimeout := .of_none (hfield _) rfl
      connectTimeout := .of_none (hfield _) rfl
      verifyTls := .of_none (hfield _) rfl }

theorem RetrySettings.fieldwise_of_readsAt {r : RetrySettings} (hn : n.Tree)
    (h : ReadsAt table n shape (some .default) path r) :
    r.Fieldwise fun s usual key => ReadsAt table n s usual (path ++ [key]) := by
  obtain ⟨es, hes, h₀⟩ | ⟨hnone, heq⟩ := h.record hn
  · obtain ⟨_, maxInterval, h₁, hmaxInterval, rfl⟩ := Fields.seq_read.mp h₀
    obtain ⟨_, randomizationFactor, h₂, hrandomizationFactor, rfl⟩ := Fields.seq_read.mp h₁
    obtain ⟨_, multiplier, h₃, hmultiplier, rfl⟩ := Fields.seq_read.mp h₂
    obtain ⟨_, initialInterval, h₄, hinitialInterval, rfl⟩ := Fields.seq_read.mp h₃
    obtain ⟨_, maxRetries, h₅, hmaxRetries, rfl⟩ := Fields.seq_read.mp h₄
    obtain ⟨maxElapsed, hmaxElapsed, rfl⟩ := Fields.map_read.mp h₅
    exact {
      maxElapsed := readsAt_withDefault hes hmaxElapsed
      maxRetries := readsAt_withDefault hes hmaxRetries
      initialInterval := readsAt_withDefault hes hinitialInterval
      multiplier := readsAt_withDefault hes hmultiplier
      randomizationFactor := readsAt_withDefault hes hrandomizationFactor
      maxInterval := readsAt_withDefault hes hmaxInterval }
  · cases heq
    have hfield (key : String) := nodeAt?_concat_of_none hnone key
    exact {
      maxElapsed := .of_none (hfield _) rfl
      maxRetries := .of_none (hfield _) rfl
      initialInterval := .of_none (hfield _) rfl
      multiplier := .of_none (hfield _) rfl
      randomizationFactor := .of_none (hfield _) rfl
      maxInterval := .of_none (hfield _) rfl }

theorem TransportSettings.Fieldwise.imp {P Q : ∀ {α : Type}, Shape α → Option α → String → α → Prop}
    (h : ∀ {α : Type} {s : Shape α} {usual : Option α} {key : String} {a : α},
      s.Flat → P s usual key a → Q s usual key a)
    {t : TransportSettings} (ht : t.Fieldwise P) : t.Fieldwise Q where
  requestTimeout := h Shape.int_flat ht.requestTimeout
  connectTimeout := h Shape.int_flat ht.connectTimeout
  verifyTls := h Shape.bool_flat ht.verifyTls

theorem RetrySettings.Fieldwise.imp {P Q : ∀ {α : Type}, Shape α → Option α → String → α → Prop}
    (h : ∀ {α : Type} {s : Shape α} {usual : Option α} {key : String} {a : α},
      s.Flat → P s usual key a → Q s usual key a)
    {r : RetrySettings} (hr : r.Fieldwise P) : r.Fieldwise Q where
  maxElapsed := h (Shape.float_flat.atLeast 0).optional hr.maxElapsed
  maxRetries := h (Shape.int_flat.atLeast 0) hr.maxRetries
  initialInterval := h (Shape.float_flat.atLeast 0) hr.initialInterval
  multiplier := h (Shape.float_flat.atLeast 1) hr.multiplier
  randomizationFactor := h ((Shape.float_flat.atMost 1).atLeast 0) hr.randomizationFactor
  maxInterval := h (Shape.float_flat.atLeast 0) hr.maxInterval

end

structure Overlaid where
  file : Document
  vars : Assignments
  entries : Entries
  get?_file : ∀ path, path ≠ [] → file.get? path = nodeAt? file.table path (.map entries)
  tree : (Node.map entries).Tree
  nonempty : ∀ v ∈ vars, v.1 ≠ []
  unambiguous : Unambiguous vars

namespace Overlaid

variable (o : Overlaid) {path : List String}

def root : Node := .map (o.entries.overlay o.file.table o.vars)

def at? (path : List String) : Option Node := nodeAt? o.file.table path o.root

def Reads (s : Shape α) (usual : Option α) (path : List String) (a : α) : Prop :=
  ReadsAt o.file.table o.root s usual path a

theorem tree_root : o.root.Tree := tree_overlay o.tree

theorem at?_of_assigned {text : String} (h : (path, text) ∈ o.vars) : o.at? path = some (.leaf (.text text)) :=
  nodeAt?_overlay_of_mem o.tree o.unambiguous h (o.nonempty _ h)

theorem at?_of_apart (hpath : path ≠ []) (h : ∀ v ∈ o.vars, Apart v.1 path) : o.at? path = o.file.get? path :=
  (nodeAt?_overlay_of_apart o.tree h).trans (o.get?_file path hpath).symm

theorem at?_append (path rest : List String) :
    o.at? (path ++ rest) = (o.at? path).bind (nodeAt? o.file.table rest) := nodeAt?_append _ _ _

/-- On the way to a path, and there, no variable's path ends. -/
def Open (path : List String) : Prop := ∀ v ∈ o.vars, ¬v.1 <+: path

variable {o}

theorem at?_below {v : List String × String} (hv : v ∈ o.vars) (h : v.1 <+: path) (hne : v.1 ≠ path) :
    o.at? path = none := by
  obtain ⟨rest, rfl⟩ := h
  have hrest : rest ≠ [] := by
    rintro rfl
    exact hne (List.append_nil _).symm
  rw [at?_append, o.at?_of_assigned hv]
  exact nodeAt?_leaf hrest _

theorem at?_above {v : List String × String} (hv : v ∈ o.vars) (h : path <+: v.1) (hne : path ≠ v.1) :
    ∃ es, o.at? path = some (.map es) := by
  obtain ⟨rest, heq⟩ := h
  have hrest : rest ≠ [] := by
    rintro rfl
    exact hne (List.append_nil path ▸ heq)
  have hleaf : o.at? (path ++ rest) = some (.leaf (.text v.2)) := heq ▸ o.at?_of_assigned hv
  rw [at?_append] at hleaf
  obtain ⟨m, hm, hrestm⟩ := Option.bind_eq_some_iff.mp hleaf
  cases tree_nodeAt? o.tree_root hm with
  | leaf s => rw [nodeAt?_leaf hrest] at hrestm; cases hrestm
  | list items =>
      obtain ⟨k, rest, rfl⟩ := List.exists_cons_of_ne_nil hrest
      cases hrestm
  | map _ _ => exact ⟨_, hm⟩

theorem open_of_map {es : Entries} (h : o.at? path = some (.map es)) : o.Open path := by
  intro v hv hbegins
  by_cases heq : v.1 = path
  · rw [← heq, o.at?_of_assigned hv] at h
    cases h
  · rw [at?_below hv hbegins heq] at h
    cases h

theorem prefix_of_open {key : String} (h : o.Open path) {v : List String × String} (hv : v ∈ o.vars)
    (hbegins : v.1 <+: path ++ [key]) : v.1 = path ++ [key] :=
  (List.prefix_concat_iff.mp hbegins).resolve_right (h v hv)

theorem open_of_none {key : String} (h : o.Open path) (hnone : o.at? (path ++ [key]) = none) :
    o.Open (path ++ [key]) := by
  intro v hv hbegins
  rw [← prefix_of_open h hv hbegins, o.at?_of_assigned hv] at hnone
  cases hnone

theorem settled {s : Shape α} {usual : Option α} {key : String} {a : α} (flat : s.Flat) (hopen : o.Open path)
    (h : o.Reads s usual (path ++ [key]) a) : Settled o.vars o.file s usual (path ++ [key]) a := by
  by_cases hassigned : ∃ text, (path ++ [key], text) ∈ o.vars
  · obtain ⟨text, htext⟩ := hassigned
    have hread := h.read_of_some (o.at?_of_assigned htext)
    exact .override htext (flat.read_text _ text ▸ hread)
  · have hfree (text) : (path ++ [key], text) ∉ o.vars := fun h => hassigned ⟨text, h⟩
    -- A variable whose path leads on from here would have put a mapping here, which is no single value.
    have hapart : ∀ v ∈ o.vars, Apart v.1 (path ++ [key]) := by
      intro v hv
      have hne : v.1 ≠ path ++ [key] := fun heq => hfree v.2 (heq ▸ hv)
      refine ⟨fun hbegins => hne (prefix_of_open hopen hv hbegins), fun hbegins => ?_⟩
      obtain ⟨es, hes⟩ := at?_above hv hbegins hne.symm
      exact flat.read_map _ _ _ (h.read_of_some hes)
    have hkept := o.at?_of_apart (by simp) hapart
    cases hfound : o.file.get? (path ++ [key]) with
    | none => exact .default hfree hfound (h.eq_of_none (hkept.trans hfound))
    | some n => exact .file hfree hfound (h.read_of_some (hkept.trans hfound))

theorem named_iff {key : String} (hopen : o.Open path) :
    (o.at? (path ++ [key])).isSome = true ↔ Named o.vars o.file (path ++ [key]) := by
  by_cases hthrough : ∃ v ∈ o.vars, path ++ [key] <+: v.1
  · refine iff_of_true ?_ (.inr hthrough)
    obtain ⟨v, hv, hbegins⟩ := hthrough
    by_cases heq : path ++ [key] = v.1
    · rw [heq, o.at?_of_assigned hv]
      rfl
    · obtain ⟨es, hes⟩ := at?_above hv hbegins heq
      rw [hes]
      rfl
  · have hapart : ∀ v ∈ o.vars, Apart v.1 (path ++ [key]) := fun v hv =>
      ⟨fun hbegins => hthrough ⟨v, hv, prefix_of_open hopen hv hbegins ▸ List.prefix_rfl⟩,
        fun hbegins => hthrough ⟨v, hv, hbegins⟩⟩
    rw [o.at?_of_apart (by simp) hapart, Named, or_iff_left hthrough]

theorem open_of_record {name : String} {fields : Fields α α} {usual : Option α} {key : String} {r : α}
    (hopen : o.Open path) (h : o.Reads (.record name fields) usual (path ++ [key]) r) :
    o.Open (path ++ [key]) := by
  obtain ⟨es, hes, -⟩ | ⟨hnone, -⟩ := h.record o.tree_root
  · exact open_of_map hes
  · exact open_of_none hopen hnone

/-- The entries of a map, each with what is read under its key, are those that the file or a variable names. -/
structure Gathers (o : Overlaid) (s : Shape α) (path : List String) (m : List (String × α)) : Prop where
  entry : ∀ key a, (key, a) ∈ m → o.Open path ∧ o.Reads s none (path ++ [key]) a
  named : ∀ key, key ∈ m.map (·.1) ↔ Named o.vars o.file (path ++ [key])
  distinct : (m.map (·.1)).Nodup

theorem text_keys (hpath : path ≠ []) (text : o.file.Unencoded path) {es : Entries}
    (h : o.at? path = some (.map es)) : ∀ k ∈ es.map (·.1), ∀ bs, k ≠ .bytes bs := by
  refine keys_overlay (P := fun k => ∀ bs, k ≠ .bytes bs) (fun _ => nofun) o.tree (fun fs hfs => ?_) h
  exact text fs ((o.get?_file path hpath).trans hfs)

theorem gathers {s : Shape α} {key : String} {usual : Option (List (String × α))} {m : List (String × α)}
    (hopen : o.Open path) (text : o.file.Unencoded (path ++ [key])) (husual : ∀ l ∈ usual, l = [])
    (h : o.Reads s.map usual (path ++ [key]) m) : o.Gathers s (path ++ [key]) m := by
  obtain ⟨es, hes, hentries, distinct⟩ | ⟨hnone, hm⟩ :=
    h.entries o.tree_root fun es => text_keys (by simp) text
  · have hat (k : String) : o.at? (path ++ [key] ++ [k]) = es.get? (.text k) := nodeAt?_concat hes k
    have htree := tree_nodeAt? o.tree_root hes
    refine ⟨fun k a hmem => ?_, fun k => ?_, distinct⟩
    · obtain ⟨x, hx, hread⟩ := hentries.get? htree hmem
      exact ⟨open_of_map hes, .of_some ((hat k).trans hx) hread⟩
    · rw [hentries.mem_keys htree, ← hat, named_iff (open_of_map hes)]
  · obtain rfl := husual m hm
    refine ⟨nofun, fun k => ?_, List.nodup_nil⟩
    have hat : o.at? (path ++ [key] ++ [k]) = none := nodeAt?_concat_of_none hnone k
    rw [← named_iff (open_of_none hopen hnone), hat]
    simp

end Overlaid

section

open Overlaid

variable {o : Overlaid}

theorem HostSettings.precedence {name : String} {host : HostSettings}
    (text : o.file.Unencoded ["hosts", name, "headers"]) (h : o.Reads shape none ["hosts", name] host) :
    host.Precedence o.vars o.file name := by
  obtain ⟨es, hes, h₀⟩ | ⟨-, ⟨⟩⟩ := h.record o.tree_root
  obtain ⟨_, transport, h₁, htransport, rfl⟩ := Fields.seq_read.mp h₀
  obtain ⟨_, headers, h₂, hheaders, rfl⟩ := Fields.seq_read.mp h₁
  obtain ⟨baseUrl, hbaseUrl, rfl⟩ := Fields.map_read.mp h₂
  have hhost : o.Open ["hosts", name] := open_of_map hes
  have hgathers := gathers hhost text (by simp) (readsAt_withDefault hes hheaders)
  have htransport : o.Reads TransportSettings.shape (some .default) ["hosts", name, "transport"] transport :=
    readsAt_withDefault hes htransport
  exact {
    baseUrl := Overlaid.settled (Shape.text_flat.checked _) hhost (readsAt_required hes hbaseUrl)
    header := fun key value hmem =>
      Overlaid.settled Shape.text_flat (hgathers.entry key value hmem).1 (hgathers.entry key value hmem).2
    headers := hgathers.named
    distinct := hgathers.distinct
    transport := (TransportSettings.fieldwise_of_readsAt o.tree_root htransport).imp fun flat hread =>
      Overlaid.settled flat (open_of_record hhost htransport) hread }

theorem Settings.precedence {settings : Settings} (hosts : o.file.Unencoded ["hosts"])
    (headers : ∀ name, o.file.Unencoded ["hosts", name, "headers"]) (h : o.Reads shape none [] settings) :
    settings.Precedence o.vars o.file := by
  obtain ⟨es, hes, h₀⟩ | ⟨-, ⟨⟩⟩ := h.record o.tree_root
  obtain ⟨_, retry, h₁, hretry, rfl⟩ := Fields.seq_read.mp h₀
  obtain ⟨_, hostMap, h₂, hhosts, rfl⟩ := Fields.seq_read.mp h₁
  obtain ⟨version, hversion, rfl⟩ := Fields.map_read.mp h₂
  have hroot : o.Open [] := open_of_map hes
  have hgathers := gathers hroot hosts (by simp) (readsAt_required hes hhosts)
  have hretry : o.Reads RetrySettings.shape (some .default) ["retry"] retry := readsAt_withDefault hes hretry
  exact {
    version := Overlaid.settled Shape.int_flat hroot (readsAt_required hes hversion)
    retry := (RetrySettings.fieldwise_of_readsAt o.tree_root hretry).imp fun flat hread =>
      Overlaid.settled flat (open_of_record hroot hretry) hread
    host := fun name host hmem => HostSettings.precedence (headers name) (hgathers.entry name host hmem).2
    hosts := hgathers.named
    distinct := hgathers.distinct }

end

theorem Document.Plain.exists_entries {d : Document} (hd : d.Plain)
    (h : (if d.isVoid then .ofNode (.map []) else d).entries?.isNone = false) :
    ∃ es : Entries, (Node.map es).Tree ∧ (if d.isVoid then .ofNode (.map []) else d) = ⟨.map es, d.table⟩ ∧
      ∀ path, path ≠ [] → d.get? path = nodeAt? d.table path (.map es) := by
  obtain ⟨root, table⟩ := d
  obtain rfl : table = #[] := hd.table
  have hempty : (Node.map []).Tree := .map .nil (List.forall_mem_nil _)
  split at h
  · rename_i hvoid
    refine ⟨[], hempty, by rw [if_pos hvoid]; rfl, fun path hpath => ?_⟩
    obtain ⟨key, rest, rfl⟩ := List.exists_cons_of_ne_nil hpath
    cases htree : hd.tree with
    | leaf _ => rfl
    | list _ => rfl
    | map _ _ =>
        rw [isVoid, resolve_of_tree hd.tree] at hvoid
        rw [List.isEmpty_iff.mp hvoid]
        rfl
  · rename_i hvoid
    cases htree : hd.tree with
    | leaf _ => cases h
    | list _ => cases h
    | map _ _ => exact ⟨_, hd.tree, if_neg hvoid, fun _ _ => rfl⟩

theorem mapError_eq_ok {ε ε' : Type} {x : Except ε α} {f : ε → ε'} {a : α} : x.mapError f = .ok a ↔ x = .ok a := by
  cases x <;> simp [Except.mapError]

/-- Whether a key can name a setting of the root: it is a text, be it one that cannot be encoded. -/
def Scalar.isName : Scalar → Bool
  | .text _ | .brokenText _ => true
  | _ => false

def Entries.named (es : Entries) : Bool := (es.map (·.1)).all Scalar.isName

namespace Settings

def assignments (lead : Option String) (env : Environment) : Assignments :=
  match lead with
  | none | some "" => []
  | some lead => (Naming.usual lead).assignments env

theorem path_ne_nil_of_mem {lead : Option String} {env : Environment} {var : List String × String}
    (h : var ∈ assignments lead env) : var.1 ≠ [] := by
  unfold assignments at h
  split at h
  · cases h
  · cases h
  · exact Naming.path_ne_nil_of_mem h

variable {path : String} {lead : Option String} {env : Environment} {d : Document} {es : Entries} {settings : Settings}

theorem ofEntries_eq (path : String) (d : Document) (es : Entries) :
    ofEntries path d es = if es.named then
      (shape.read d.view).mapError fun faults => .settings (.invalid path faults)
    else .error (.document .nameNotText) := by
  rw [Entries.named, List.all_map]
  rfl

theorem ofEntries_eq_ok : ofEntries path d es = .ok settings ↔
    es.named = true ∧ shape.read d.view = .ok settings := by
  rw [ofEntries_eq]
  split
  · rename_i hkeys
    rw [and_iff_right hkeys]
    exact mapError_eq_ok
  · rename_i hkeys
    simp [hkeys]

theorem ofDocument_eq_ofEntries (path : String) (lead : Option String) (env : Environment) (hes : (Node.map es).Tree)
    (heq : (if d.isVoid then .ofNode (.map []) else d) = ⟨.map es, d.table⟩) :
    ofDocument path lead env d = ofEntries path ⟨.map (es.overlay d.table (assignments lead env)), d.table⟩
      (es.overlay d.table (assignments lead env)) := by
  have hentries : (⟨.map es, d.table⟩ : Document).entries?.isNone = false := rfl
  simp only [ofDocument, heq, hentries, Bool.false_eq_true, if_false]
  split
  · rfl
  · rfl
  · rename_i hne
    rw [override_eq _ env hes rfl, assignments]
    · rfl
    · exact hne

theorem exists_entries_of_ofDocument (plain : d.Plain) (h : ofDocument path lead env d = .ok settings) :
    ∃ es : Entries, (Node.map es).Tree ∧ (∀ path, path ≠ [] → d.get? path = nodeAt? d.table path (.map es)) ∧
      ∀ env, ofDocument path lead env d = ofEntries path ⟨.map (es.overlay d.table (assignments lead env)), d.table⟩
        (es.overlay d.table (assignments lead env)) := by
  by_cases hnone : (if d.isVoid = true then Document.ofNode (.map []) else d).entries?.isNone = true
  · simp only [ofDocument] at h
    rw [if_pos hnone] at h
    cases h
  · obtain ⟨es, htree, heq, hget⟩ := plain.exists_entries (Bool.eq_false_iff.mpr hnone)
    exact ⟨es, htree, hget, fun env => ofDocument_eq_ofEntries path lead env htree heq⟩

theorem reads_of_ofDocument (plain : d.Plain) (h : ofDocument path lead env d = .ok settings) :
    ∃ es : Entries, (Node.map es).Tree ∧
      (∀ path, path ≠ [] → d.get? path = nodeAt? d.table path (.map es)) ∧
      shape.read (View.mk d.table (.map (es.overlay d.table (assignments lead env)))) = .ok settings := by
  obtain ⟨es, htree, hget, hentries⟩ := exists_entries_of_ofDocument plain h
  rw [hentries] at h
  exact ⟨es, htree, hget, (ofEntries_eq_ok.mp h).2⟩

theorem precedence_of_ofDocument (plain : d.Plain) (unambiguous : Unambiguous (assignments lead env))
    (hosts : d.Unencoded ["hosts"]) (headers : ∀ name, d.Unencoded ["hosts", name, "headers"])
    (h : ofDocument path lead env d = .ok settings) : settings.Precedence (assignments lead env) d := by
  obtain ⟨es, htree, hget, hread⟩ := reads_of_ofDocument plain h
  let o : Overlaid := ⟨d, assignments lead env, es, hget, htree, fun _ => path_ne_nil_of_mem, unambiguous⟩
  exact Settings.precedence (o := o) hosts headers (.of_some (m := o.root) rfl hread)

end Settings

end LedgerQuery
