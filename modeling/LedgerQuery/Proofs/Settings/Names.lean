import LedgerQuery.Proofs.Document.Laws
import LedgerQuery.Proofs.Settings.Pieces
import LedgerQuery.Proofs.Settings.Spelling
import LedgerQuery.Settings.Schema

namespace LedgerQuery

/-- Tokens that two underscores keep apart. -/
structure Delimited (tokens : List String) : Prop where
  nonempty : tokens ≠ []
  single : ∀ t ∈ tokens, ¬"__".toList <:+: t.toList
  ends : ∀ t ∈ tokens.dropLast, ¬"_".toList <:+ t.toList

theorem underscores_infix_concat (cs : List Char) :
    "__".toList <:+: cs ++ "_".toList ↔ "__".toList <:+: cs ∨ "_".toList <:+ cs := by
  have hsuffix : "_".toList ++ "_".toList <:+ cs ++ "_".toList ↔ "_".toList <:+ cs := by
    rw [← List.reverse_prefix, List.reverse_append, List.reverse_append, List.prefix_append_right_inj,
      List.reverse_prefix]
  rw [or_comm, ← hsuffix]
  exact List.infix_concat_iff

theorem delimited_iff {tokens : List String} :
    Delimited tokens ↔ Separable "__".toList (tokens.map String.toList) := by
  constructor
  · rintro ⟨nonempty, single, ends⟩
    refine ⟨by simpa using nonempty, List.forall_mem_map.mpr single, ?_⟩
    rw [← List.map_dropLast]
    refine List.forall_mem_map.mpr fun t ht hinfix => ?_
    obtain hinfix | hsuffix := (underscores_infix_concat _).mp hinfix
    · exact single t (List.mem_of_mem_dropLast ht) hinfix
    · exact ends t ht hsuffix
  · rintro ⟨nonempty, free, ends⟩
    rw [← List.map_dropLast] at ends
    refine ⟨by simpa using nonempty, fun t ht => free _ (List.mem_map_of_mem ht), fun t ht hsuffix => ?_⟩
    exact ends _ (List.mem_map_of_mem ht) ((underscores_infix_concat _).mpr (.inr hsuffix))

theorem after?_eq_some {ws cs rest : List Char} : after? ws cs = some rest ↔ cs = ws ++ rest := by
  induction ws generalizing cs with
  | nil => rw [after?, Option.some.injEq, List.nil_append]
  | cons w ws ih =>
      cases cs with
      | nil => simp [after?]
      | cons c cs =>
          rw [after?, List.cons_append, List.cons.injEq]
          split
          · rename_i hw
            rw [ih, and_iff_right hw.symm]
          · rename_i hw
            exact iff_of_false nofun fun h => hw h.1.symm

namespace Naming

def name (n : Naming) (tokens : List String) : String :=
  n.lead ++ n.delimiter ++ n.delimiter.intercalate tokens

variable {n : Naming} {tokens : List String}

theorem suffix?_eq_some {name : String} {suffix : List Char} :
    n.suffix? name = some suffix ↔ name = n.lead ++ n.delimiter ++ String.ofList suffix := by
  rw [suffix?, after?_eq_some, ← String.toList_inj]
  simp only [String.toList_append, String.toList_ofList]

theorem tokens_eq_iff (h : n.delimiter ≠ "") {suffix : List Char} : n.tokens suffix = tokens ↔
    String.ofList suffix = n.delimiter.intercalate tokens ∧
      Separable n.delimiter.toList (tokens.map String.toList) := by
  have hmark : n.delimiter.toList ≠ [] := mt String.toList_eq_nil_iff.mp h
  have htokens : n.tokens suffix = tokens ↔ pieces n.delimiter.toList [] suffix = tokens.map String.toList := by
    constructor
    · rintro rfl
      simp [Naming.tokens, Function.comp_def]
    · intro hpieces
      simp [Naming.tokens, hpieces, Function.comp_def]
  rw [htokens, pieces_eq_iff hmark, splits_iff, ← String.toList_intercalate, ← String.toList_inj,
    String.toList_ofList]

/-- The tokens are told by their own name only, and by that if they can be told apart. -/
theorem tokens_iff (h : n.delimiter ≠ "") {name : String} : (n.suffix? name).map n.tokens = some tokens ↔
    name = n.name tokens ∧ Separable n.delimiter.toList (tokens.map String.toList) := by
  rw [Option.map_eq_some_iff]
  constructor
  · rintro ⟨suffix, hsuffix, htokens⟩
    obtain ⟨hjoined, separable⟩ := (tokens_eq_iff h).mp htokens
    rw [suffix?_eq_some.mp hsuffix, hjoined]
    exact ⟨rfl, separable⟩
  · rintro ⟨rfl, separable⟩
    refine ⟨(n.delimiter.intercalate tokens).toList, suffix?_eq_some.mpr ?_, (tokens_eq_iff h).mpr ⟨?_, separable⟩⟩
    · rw [String.ofList_toList, Naming.name]
    · rw [String.ofList_toList]

end Naming

namespace Text

/-- Small letters and digits, with single underscores that may stand anywhere but at the end. Of the other characters
all are let in that lower casing leaves as they are. -/
structure SnakeCase (s : String) : Prop where
  small : ∀ c ∈ s.toList, IsSmall c
  single : ¬"__".toList <:+: s.toList
  ends : ¬"_".toList <:+ s.toList

variable {s : String}

instance : Decidable (SnakeCase s) :=
  -- over the characters of the text, not over all that there are
  haveI : Decidable (∀ c ∈ s.toList, IsSmall c) := List.decidableBAll IsSmall s.toList
  decidable_of_iff ((∀ c ∈ s.toList, IsSmall c) ∧ ¬"__".toList <:+: s.toList ∧ ¬"_".toList <:+ s.toList)
    ⟨fun ⟨small, single, ends⟩ => ⟨small, single, ends⟩, fun ⟨small, single, ends⟩ => ⟨small, single, ends⟩⟩

theorem SnakeCase.lower (h : SnakeCase s) : Text.lower s = s := by
  apply String.toList_injective
  rw [Text.lower, String.toList_ofList]
  exact lowerAfter_of_isSmall h.small

end Text

open Text (SnakeCase)

/-- The names of the fields, where a record is displayed. -/
def Display.names : Display → List String
  | .record _ fields => fields.map (·.1)
  | _ => []

/-- The path is that of a setting which is declared, or of a host with such a name. -/
inductive Settings.Declares (host : String → Prop) : List String → Prop
  | root {s : Settings} {key : String} (declared : key ∈ (shape.display s).names) : Declares host [key]
  | retry {s : RetrySettings} {key : String} (declared : key ∈ (RetrySettings.shape.display s).names) :
      Declares host ["retry", key]
  | host {name : String} (named : host name) : Declares host ["hosts", name]
  | ofHost {name : String} (named : host name) {s : HostSettings} {key : String}
      (declared : key ∈ (HostSettings.shape.display s).names) : Declares host ["hosts", name, key]
  | transport {name : String} (named : host name) {s : TransportSettings} {key : String}
      (declared : key ∈ (TransportSettings.shape.display s).names) : Declares host ["hosts", name, "transport", key]

section

variable {path : List String}

theorem delimited_of_snakeCase (hpath : path ≠ []) (h : ∀ t ∈ path, SnakeCase t) : Delimited path :=
  ⟨hpath, fun t ht => (h t ht).single, fun t ht => (h t (List.mem_of_mem_dropLast ht)).ends⟩

theorem map_lower_of_snakeCase (h : ∀ t ∈ path, SnakeCase t) : path.map Text.lower = path :=
  (List.map_congr_left fun t ht => (h t ht).lower).trans (List.map_id path)

theorem snakeCase_of_declares (h : Settings.Declares SnakeCase path) : path ≠ [] ∧ ∀ t ∈ path, SnakeCase t := by
  have hgroups : SnakeCase "hosts" ∧ SnakeCase "retry" ∧ SnakeCase "transport" := by decide +kernel
  obtain ⟨hhosts, hretry, htransport⟩ := hgroups
  cases h with
  | @root s key declared =>
      have hnames : ∀ key ∈ ["version", "hosts", "retry"], SnakeCase key := by decide +kernel
      exact ⟨by simp, by simpa using hnames key declared⟩
  | @retry s key declared =>
      have hnames : ∀ key ∈ ["max_elapsed_seconds", "max_retries", "initial_interval_seconds", "multiplier",
          "randomization_factor", "max_interval_seconds"], SnakeCase key := by decide +kernel
      exact ⟨by simp, by simpa using ⟨hretry, hnames key declared⟩⟩
  | host named => exact ⟨by simp, by simpa using ⟨hhosts, named⟩⟩
  | @ofHost name named s key declared =>
      have hnames : ∀ key ∈ ["base_url", "headers", "transport"], SnakeCase key := by decide +kernel
      exact ⟨by simp, by simpa using ⟨hhosts, named, hnames key declared⟩⟩
  | @transport name named s key declared =>
      have hnames : ∀ key ∈ ["request_timeout_seconds", "connect_timeout_seconds", "verify_tls"], SnakeCase key := by
        decide +kernel
      exact ⟨by simp, by simpa using ⟨hhosts, named, htransport, hnames key declared⟩⟩

end

namespace Entries

/-- At the paths that part from the path both have the same. -/
def AgreeApart (table : Array Node) (path : List String) (es fs : Entries) : Prop :=
  ∀ other, Document.Apart path other → Document.nodeAt? table other (.map es) = Document.nodeAt? table other (.map fs)

section

variable {table : Array Node} {path way : List String} {es fs : Entries}

theorem AgreeApart.set (h : AgreeApart table path es fs) (hes : Inline way es) (hfs : Inline way fs) (x : Node) :
    AgreeApart table path (set table x way es).1 (set table x way fs).1 := by
  intro other apart
  by_cases hbelow : way <+: other
  · obtain ⟨rest, rfl⟩ := hbelow
    rw [Document.nodeAt?_append, Document.nodeAt?_append, Document.nodeAt?_set_self hes,
      Document.nodeAt?_set_self hfs]
  · by_cases habove : other <+: way
    · obtain ⟨rest, rfl⟩ := habove
      have hrest : rest ≠ [] := by
        rintro rfl
        rw [List.append_nil] at hbelow
        exact hbelow List.prefix_rfl
      obtain ⟨key, after, rfl⟩ := List.exists_cons_of_ne_nil hrest
      rw [(nodeAt?_set_before hes table x).2, (nodeAt?_set_before hfs table x).2, h other apart]
    · rw [Document.nodeAt?_set_of_apart hes ⟨hbelow, habove⟩, Document.nodeAt?_set_of_apart hfs ⟨hbelow, habove⟩,
        h other apart]

theorem AgreeApart.overlay (h : AgreeApart table path es fs) (hes : (Node.map es).Tree) (hfs : (Node.map fs).Tree)
    {vars : Assignments} (nonempty : ∀ v ∈ vars, v.1 ≠ []) :
    AgreeApart table path (es.overlay table vars) (fs.overlay table vars) := by
  induction vars generalizing es fs with
  | nil => exact h
  | cons var vars ih =>
      obtain ⟨hvar, hvars⟩ := List.forall_mem_cons.mp nonempty
      have hx := Node.Tree.leaf (.text var.2)
      exact ih (h.set (inline_of_tree hes hvar) (inline_of_tree hfs hvar) _) (tree_set table hes hx var.1).1
        (tree_set table hfs hx var.1).1 hvars

end

end Entries

namespace Naming

variable {lead : String} {tokens path : List String}

theorem usual_tokens_iff {name : String} : ((usual lead).suffix? name).map (usual lead).tokens = some tokens ↔
    name = (usual lead).name tokens ∧ Delimited tokens := by
  have hdelimiter : (usual lead).delimiter ≠ "" := by simp [usual]
  rw [tokens_iff hdelimiter, delimited_iff]
  rfl

theorem path?_name (h : Delimited tokens) :
    (usual lead).path? ((usual lead).name tokens) = some (tokens.map Text.lower) := by
  obtain ⟨suffix, hsuffix, htokens⟩ := Option.map_eq_some_iff.mp (usual_tokens_iff.mpr ⟨rfl, h⟩)
  rw [path?, hsuffix, Option.map_some, htokens]

end Naming

/-- The variable of that name sets what is at the path, and nothing else. -/
structure Naming.Sets (n : Naming) (name : String) (path : List String) : Prop where
  turn : ∀ (d : Document) (before after : Environment) (text : String), d.override n (before ++ (name, text) :: after) =
    ((d.override n before).set (.leaf (.text text)) path).override n after
  alone : ∀ (d : Document) (text : String), d.Inline path →
    ∃ d', d.override? n [(name, text)] = .ok d' ∧ d.Updates path (.leaf (.text text)) d'
  /-- Whatever other variables there are, this one makes no difference at the paths that part from its own. -/
  others : ∀ (d : Document) (es : Entries) (before after : Environment) (text : String), d.Plain → d.root = .map es →
    ∀ other, Document.Apart path other →
      (d.override n (before ++ (name, text) :: after)).get? other = (d.override n (before ++ after)).get? other

namespace Document

variable {n : Naming} {name : String} {path : List String}

theorem override_apart {d : Document} {es : Entries} (plain : d.Plain) (root : d.root = .map es)
    (hname : n.path? name = some path) (before after : Environment) (text : String) {other : List String}
    (apart : Apart path other) : (d.override n (before ++ (name, text) :: after)).get? other =
      (d.override n (before ++ after)).get? other := by
  have hes : (Node.map es).Tree := root ▸ plain.tree
  have hbefore : (Node.map (es.overlay d.table (n.assignments before))).Tree := tree_overlay hes
  have hset := Entries.tree_set d.table hbefore (.leaf (.text text)) path
  have hagree : Entries.AgreeApart d.table path
      (Entries.set d.table (.leaf (.text text)) path (es.overlay d.table (n.assignments before))).1
      (es.overlay d.table (n.assignments before)) :=
    fun other apart => nodeAt?_set_of_apart (Entries.inline_of_tree hbefore apart.ne_nil.1) apart
  have hafter : Entries.AgreeApart d.table path _ _ :=
    hagree.overlay hset.1 hbefore (fun v (hv : v ∈ n.assignments after) => Naming.path_ne_nil_of_mem hv)
  rw [override_eq n _ hes root, override_eq n _ hes root]
  simpa only [get?, Naming.assignments, List.filterMap_append, List.filterMap_cons, hname, Option.map_some,
    Entries.overlay, List.foldl_append, List.foldl_cons] using hafter other apart

end Document

namespace Naming

theorem sets_of_path? {n : Naming} (h : n.delimiter ≠ "") {name : String} {path : List String}
    (hname : n.path? name = some path) : n.Sets name path where
  turn d before after text := by
    simp only [Document.override, List.foldl_append, List.foldl_cons, Document.applyVariable, hname]
  alone d text inline := by
    obtain ⟨suffix, hsuffix, rfl⟩ := Option.map_eq_some_iff.mp hname
    have htokens : (n.suffix? name).map n.tokens = some (n.tokens suffix) := by rw [hsuffix, Option.map_some]
    have updates := inline.updates (.leaf (.text text))
    obtain ⟨es, root, -⟩ := inline
    exact ⟨_, Document.override?_eq_set text h htokens root, updates⟩
  others d es before after text plain root other apart :=
    Document.override_apart plain root hname before after text apart

/-- Behind what names begin with, tokens that are kept apart are told by one name, and no others are. The variable of
that name sets what is at their path, in small letters; so that each declared setting, of hosts with names in snake
case, has a variable that sets this and nothing else. -/
theorem name_addresses (lead : String) :
    (∀ name tokens, ((usual lead).suffix? name).map (usual lead).tokens = some tokens ↔
      name = (usual lead).name tokens ∧ Delimited tokens) ∧
    (∀ tokens, Delimited tokens → (usual lead).Sets ((usual lead).name tokens) (tokens.map Text.lower)) ∧
    ∀ path, Settings.Declares SnakeCase path → Delimited path ∧ (usual lead).Sets ((usual lead).name path) path := by
  have hdelimiter : (usual lead).delimiter ≠ "" := by simp [usual]
  have hsets (tokens) (h : Delimited tokens) : (usual lead).Sets ((usual lead).name tokens) (tokens.map Text.lower) :=
    sets_of_path? hdelimiter (path?_name h)
  refine ⟨fun name tokens => usual_tokens_iff, hsets, fun path declared => ?_⟩
  obtain ⟨hpath, hsnake⟩ := snakeCase_of_declares declared
  have delimited := delimited_of_snakeCase hpath hsnake
  have hpathsets := hsets path delimited
  rw [map_lower_of_snakeCase hsnake] at hpathsets
  exact ⟨delimited, hpathsets⟩

/-- Where empty tokens meet one that begins with an underscore, the underscores of the name fall apart in one way. -/
theorem underscored_addresses : Delimited ["", "_a", "", "B_"] ∧
    (usual "APP").name ["", "_a", "", "B_"] = "APP_____a____B_" ∧
    ((usual "APP").suffix? "APP_____a____B_").map (usual "APP").tokens = some ["", "_a", "", "B_"] ∧
    (usual "APP").Sets "APP_____a____B_" ["", "_a", "", "b_"] ∧
    Settings.Declares SnakeCase ["hosts", "node_1", "transport", "verify_tls"] ∧
    (usual "APP").Sets "APP__hosts__node_1__transport__verify_tls" ["hosts", "node_1", "transport", "verify_tls"] := by
  have delimited : Delimited ["", "_a", "", "B_"] := ⟨by simp, by decide +kernel, by decide +kernel⟩
  have hname : (usual "APP").name ["", "_a", "", "B_"] = "APP_____a____B_" := by decide +kernel
  have hlower : ["", "_a", "", "B_"].map Text.lower = ["", "_a", "", "b_"] := by decide +kernel
  have declared : Settings.Declares SnakeCase ["hosts", "node_1", "transport", "verify_tls"] :=
    .transport (s := .default) (by decide +kernel) (by decide +kernel)
  have hsetting : (usual "APP").name ["hosts", "node_1", "transport", "verify_tls"] =
      "APP__hosts__node_1__transport__verify_tls" := by decide +kernel
  obtain ⟨htokens, hsets, hdeclared⟩ := name_addresses "APP"
  refine ⟨delimited, hname, (htokens _ _).mpr ⟨hname.symm, delimited⟩, ?_, declared, ?_⟩
  · rw [← hname, ← hlower]
    exact hsets _ delimited
  · rw [← hsetting]
    exact (hdeclared _ declared).2

end Naming

end LedgerQuery
