import LedgerQuery.Proofs.Settings.Precedence
import LedgerQuery.Proofs.Yaml.Tree

namespace LedgerQuery

open Document

def Node.hasEncodedKey : Node → Bool
  | .map entries => entries.any fun e => (e.1 matches .bytes _)
  | _ => false

def Document.namesEncoded (d : Document) : Bool :=
  match d.get? ["hosts"] with
  | some (.map hosts) => (Node.map hosts).hasEncodedKey ||
      hosts.any fun e => (nodeAt? d.table ["headers"] e.2).any Node.hasEncodedKey
  | _ => false

theorem unencoded_of_hasEncodedKey {d : Document} {path : List String}
    (h : ∀ n, d.get? path = some n → n.hasEncodedKey = false) : d.Unencoded path := by
  rintro es hes k hk bs rfl
  obtain ⟨e, he, heq⟩ := List.mem_map.mp hk
  have hnone := List.any_eq_false.mp (h _ hes) e he
  rw [heq] at hnone
  exact hnone rfl

theorem unencoded_of_namesEncoded {d : Document} (hd : d.Plain) (h : d.namesEncoded = false) :
    d.Unencoded ["hosts"] ∧ ∀ name, d.Unencoded ["hosts", name, "headers"] := by
  unfold namesEncoded at h
  refine ⟨unencoded_of_hasEncodedKey fun n hn => ?_, fun name => unencoded_of_hasEncodedKey fun n hn => ?_⟩
  · rw [hn] at h
    cases n with
    | map hosts => exact (Bool.or_eq_false_iff.mp h).1
    | _ => rfl
  · change nodeAt? d.table (["hosts"] ++ name :: ["headers"]) d.root = some n at hn
    rw [nodeAt?_append] at hn
    obtain ⟨m, hm, hn⟩ := Option.bind_eq_some_iff.mp hn
    rw [get?, hm] at h
    cases tree_nodeAt? hd.tree hm with
    | leaf _ => cases hn
    | list _ => cases hn
    | map _ _ =>
        rw [nodeAt?_map] at hn
        obtain ⟨host, hhost, hn⟩ := Option.bind_eq_some_iff.mp hn
        have hnone := List.any_eq_false.mp (Bool.or_eq_false_iff.mp h).2 _ (Entries.text_mem_of_get? hhost)
        rw [hn] at hnone
        exact Bool.not_eq_true _ ▸ hnone

section

variable {ε α β : Type}

theorem exists_of_bind {x : Except ε α} {f : α → Except ε β} {b : β} (h : x >>= f = .ok b) :
    ∃ a, x = .ok a ∧ f a = .ok b := by
  cases x with
  | ok a => exact ⟨a, rfl, h⟩
  | error e => cases h

theorem exists_of_toOption {x : Except ε α} {f : α → β} {b : β} (h : x.toOption.map f = some b) :
    ∃ a, x = .ok a ∧ f a = b := by
  cases x with
  | ok a => exact ⟨a, rfl, Option.some.inj h⟩
  | error e => cases h

end

def Document.filled (d : Document) : Document := if d.isVoid then .ofNode (.map []) else d

def Document.under (lead : Option String) (env : Environment) (d : Document) : Document :=
  match lead with
  | none | some "" => d
  | some lead => d.override (.usual lead) env

theorem Settings.ofDocument_eq (path : String) (lead : Option String) (env : Environment) (d : Document) :
    ofDocument path lead env d =
      if d.filled.entries?.isNone then .error (.settings (.notMapping path))
      else ofEntries path (d.filled.under lead env) ((d.filled.under lead env).entries?.getD []) := rfl

namespace SettingsQuery

def text? (q : SettingsQuery) (fs : Files) : Option (List Char) := do
  let (file, _) ← (q.places fs).toOption
  let content ← (fs.read file).toOption
  let s ← String.fromUTF8? ⟨content.toArray⟩
  return normalBreaks s.toList

variable {q : SettingsQuery} {fs : Files} {env : Environment} {loaded : LoadedSettings}

/-- What is loaded under the variables of one environment is loaded from a document, in which the variables of others
can be set as well. -/
theorem exists_document_of_load (h : q.load fs env = .ok loaded) : ∃ text d path, q.text? fs = some text ∧
    Yaml.read text = .ok d ∧ Settings.ofDocument path q.lead env d = .ok loaded.settings ∧
      ∀ env' settings, Settings.ofDocument path q.lead env' d = .ok settings →
        q.load fs env' = .ok ⟨settings, loaded.projectRoot⟩ := by
  obtain ⟨⟨file, root⟩, hplaces, h⟩ := exists_of_bind h
  obtain ⟨content, hcontent, h⟩ := exists_of_bind h
  obtain ⟨d, hd, h⟩ := exists_of_bind h
  obtain ⟨settings, hsettings, h⟩ := exists_of_bind h
  cases h
  have others (env' : Environment) (settings' : Settings)
      (h : Settings.ofDocument file.text q.lead env' d = .ok settings') :
      q.load fs env' = .ok ⟨settings', root⟩ := by
    simp [load, hplaces, hcontent, hd, h, bind, Except.bind, pure, Except.pure]
  have hcontent := mapError_eq_ok.mp hcontent
  have hd := mapError_eq_ok.mp hd
  unfold ofBytes at hd
  cases hs : String.fromUTF8? ⟨content.toArray⟩ with
  | none =>
      rw [hs] at hd
      cases hd
  | some s =>
      rw [hs] at hd
      refine ⟨normalBreaks s.toList, d, file.text, ?_, mapError_eq_ok.mp hd, hsettings, others⟩
      simp [text?, hplaces, hcontent, hs, Except.toOption]

theorem exists_of_load (h : q.load fs env = .ok loaded) : ∃ text d path, q.text? fs = some text ∧
    Yaml.read text = .ok d ∧ Settings.ofDocument path q.lead env d = .ok loaded.settings := by
  obtain ⟨text, d, path, htext, hread, hload, -⟩ := exists_document_of_load h
  exact ⟨text, d, path, htext, hread, hload⟩

theorem read_of_load (h : q.load fs env = .ok loaded) :
    ∃ d : Document, Settings.shape.read d.view = .ok loaded.settings := by
  obtain ⟨_, d, path, -, -, hload⟩ := exists_of_load h
  rw [Settings.ofDocument_eq] at hload
  split at hload
  · cases hload
  · exact ⟨_, (Settings.ofEntries_eq_ok.mp hload).2⟩

/-- What a variable sets has it from there; what none sets, from the file, or by default. -/
theorem load_precedence (unambiguous : Unambiguous (Settings.assignments q.lead env))
    (h : q.load fs env = .ok loaded) : ∃ text d, q.text? fs = some text ∧ Yaml.read text = .ok d ∧
      (Yaml.usesAlias text = false → Yaml.usesMerge text = false → d.namesEncoded = false →
        loaded.settings.Precedence (Settings.assignments q.lead env) d) := by
  obtain ⟨text, d, path, htext, hread, hload⟩ := exists_of_load h
  refine ⟨text, d, htext, hread, fun haliases hmerges hnames => ?_⟩
  have hd := Yaml.plain_of_read haliases hmerges hread
  obtain ⟨hosts, headers⟩ := unencoded_of_namesEncoded hd hnames
  exact Settings.precedence_of_ofDocument hd unambiguous hosts headers hload

def sole : SettingsQuery := ⟨some (.absolute ⟨"/", ["settings.yaml"]⟩), none, some "APP", ⟨"/", []⟩⟩

def soleFile (text : String) : Files := ⟨"/", .directory [("settings.yaml", .file text.toUTF8.data.toList)]⟩

def plainText : String := "version: 1\nhosts: \x7ba: \x7bbase_url: http://a\x7d\x7d\n"

def plainVariables : Environment := [("APP__HOSTS__A__HEADERS__Z", "w"), ("APP__RETRY__MAX_RETRIES", "2")]

/-- A variable for a header, and one for the retry settings, leave all else to the file and to the defaults. -/
theorem plain_precedence : ∃ d loaded, Yaml.read plainText.toList = .ok d ∧
    sole.load (soleFile plainText) plainVariables = .ok loaded ∧
      loaded.settings.hosts = [("a", ⟨"http://a", [("z", "w")], .default⟩)] ∧
        loaded.settings.Precedence [(["hosts", "a", "headers", "z"], "w"), (["retry", "max_retries"], "2")] d := by
  have hassignments : Settings.assignments sole.lead plainVariables =
      [(["hosts", "a", "headers", "z"], "w"), (["retry", "max_retries"], "2")] := by decide +kernel
  obtain ⟨loaded, hload, hhosts⟩ := exists_of_toOption (show
    (sole.load (soleFile plainText) plainVariables).toOption.map (·.settings.hosts) =
      some [("a", ⟨"http://a", [("z", "w")], .default⟩)] by decide +kernel)
  obtain ⟨d', hd', hnames⟩ := exists_of_toOption (show
    (Yaml.read plainText.toList).toOption.map namesEncoded = some false by decide +kernel)
  obtain ⟨text, d, htext, hread, hprecedence⟩ := load_precedence (hassignments ▸ by decide) hload
  have hsole : sole.text? (soleFile plainText) = some plainText.toList := by decide +kernel
  obtain rfl : plainText.toList = text := Option.some.inj (hsole.symm.trans htext)
  obtain rfl : d' = d := Except.ok.inj (hd'.symm.trans hread)
  have hsettings := hprecedence (by decide +kernel) (by decide +kernel) hnames
  rw [hassignments] at hsettings
  exact ⟨d', loaded, hd', hload, hhosts, hsettings⟩

def encodedText : String :=
  "version: 1\nhosts:\n  a: \x7bbase_url: http://a\x7d\n  !!binary YQ==: \x7bbase_url: http://b\x7d\n"

def encodedVariables : Environment := [("APP__HOSTS__A__BASE_URL", "http://c")]

/-- A variable for the first of the hosts does not reach the settings, where the second replaces it. -/
theorem encoded_name_precedence : ∃ d loaded, sole.text? (soleFile encodedText) = some encodedText.toList ∧
    Yaml.read encodedText.toList = .ok d ∧ Yaml.usesAlias encodedText.toList = false ∧
      Yaml.usesMerge encodedText.toList = false ∧ Unambiguous (Settings.assignments sole.lead encodedVariables) ∧
        sole.load (soleFile encodedText) encodedVariables = .ok loaded ∧
          ¬loaded.settings.Precedence (Settings.assignments sole.lead encodedVariables) d := by
  have hassignments : Settings.assignments sole.lead encodedVariables =
      [(["hosts", "a", "base_url"], "http://c")] := by decide +kernel
  obtain ⟨loaded, hload, hhosts⟩ := exists_of_toOption (show
    (sole.load (soleFile encodedText) encodedVariables).toOption.map (·.settings.hosts) =
      some [("a", ⟨"http://b", [], .default⟩)] by decide +kernel)
  have hsole : sole.text? (soleFile encodedText) = some encodedText.toList := by decide +kernel
  obtain ⟨text, d, _, htext, hread, -⟩ := exists_of_load hload
  obtain rfl : encodedText.toList = text := Option.some.inj (hsole.symm.trans htext)
  refine ⟨d, loaded, hsole, hread, by decide +kernel, by decide +kernel, hassignments ▸ by decide, hload,
    fun hprecedence => ?_⟩
  have hurl := (hprecedence.host "a" ⟨"http://b", [], .default⟩ (hhosts ▸ List.mem_singleton_self _)).baseUrl
  rw [hassignments] at hurl
  cases hurl with
  | override assigned read =>
      cases List.mem_singleton.mp assigned
      revert read
      decide +kernel
  | file free => exact free "http://c" (List.mem_singleton_self _)
  | default free => exact free "http://c" (List.mem_singleton_self _)

end SettingsQuery

end LedgerQuery
