import LedgerQuery.Proofs.Settings.Load
import LedgerQuery.Proofs.Settings.Steady

namespace LedgerQuery

open Document

/-- Documents with the same entries at their roots, in any order at any depth. -/
def Document.Reordered (d d' : Document) : Prop :=
  ∃ es fs : Entries, d.root = .map es ∧ d'.root = .map fs ∧ es.Reordered fs ∧ d.table = d'.table

structure LoadedSettings.Same (a b : LoadedSettings) : Prop where
  settings : a.settings.Same b.settings
  projectRoot : a.projectRoot = b.projectRoot

/-- Two attempts that both fail, or come to results that are related. -/
inductive Alike {ε α : Type} (R : α → α → Prop) : Except ε α → Except ε α → Prop
  | error (e e' : ε) : Alike R (.error e) (.error e')
  | ok {a b : α} (related : R a b) : Alike R (.ok a) (.ok b)

namespace Naming

variable (n : Naming)

def counts (var : String × String) : Bool := (n.lead ++ n.delimiter).toList.isPrefixOf var.1.toList

theorem after?_isSome (ws cs : List Char) : (after? ws cs).isSome = ws.isPrefixOf cs := by
  induction ws generalizing cs with
  | nil => cases cs <;> rfl
  | cons w ws ih =>
      cases cs with
      | nil => rfl
      | cons c cs =>
          by_cases hw : w = c
          · subst hw
            simp [after?, ih]
          · have hbeq : (w == c) = false := beq_eq_false_iff_ne.mpr hw
            simp [after?, hw, List.isPrefixOf, hbeq]

theorem suffix?_isSome (var : String × String) : (n.suffix? var.1).isSome = n.counts var := after?_isSome _ _

theorem path?_of_not_counts {var : String × String} (h : n.counts var = false) : n.path? var.1 = none := by
  rw [← suffix?_isSome, Option.isSome_eq_false_iff, Option.isNone_iff_eq_none] at h
  rw [path?, h, Option.map_none]

end Naming

namespace Document

variable (n : Naming) (d : Document)

theorem override_filter (env : Environment) : d.override n (env.filter n.counts) = d.override n env := by
  rw [override, override, List.foldl_filter]
  congr 1
  funext d var
  cases hcounts : n.counts var with
  | true => rfl
  | false => simp [applyVariable, n.path?_of_not_counts hcounts]

theorem override?_filter (env : Environment) : d.override? n (env.filter n.counts) = d.override? n env := by
  have hnone : ((env.filter n.counts).all fun var => (n.suffix? var.1).isNone) =
      env.all fun var => (n.suffix? var.1).isNone := by
    rw [List.all_filter]
    congr 1
    funext var
    rw [← n.suffix?_isSome]
    cases n.suffix? var.1 <;> rfl
  rw [override?, override?, hnone, override_filter]

variable {n d}

theorem Plain.root_eq {es : Entries} (hd : d.Plain) (h : d.entries? = some es) : d.root = .map es := by
  rw [entries?, resolve_of_tree hd.tree] at h
  split at h
  · rename_i hroot
    exact Option.some.inj h ▸ hroot
  · cases h

theorem override?_perm {es : Entries} {env env' : Environment} (plain : d.Plain) (root : d.root = .map es)
    (perm : env.Perm env') (unambiguous : Unambiguous (n.assignments env)) :
    Alike Document.Reordered (d.override? n env) (d.override? n env') := by
  have htree : (Node.map es).Tree := root ▸ plain.tree
  have hall : (env'.all fun var => (n.suffix? var.1).isNone) = env.all fun var => (n.suffix? var.1).isNone :=
    perm.symm.all_eq
  have hentries : d.entries? = some es := by
    rw [entries?, root]
    rfl
  rw [override?, override?, hall, override_eq n env htree root, override_eq n env' htree root, hentries]
  split
  · exact .ok ⟨es, es, root, root, .refl, rfl⟩
  · split
    · exact .error _ _
    · exact .ok ⟨_, _, rfl, rfl, Entries.overlay_perm (perm.filterMap _) unambiguous htree, rfl⟩

end Document

namespace Settings

variable {path : String} {lead : Option String} {env env' : Environment} {d : Document} {es fs : Entries} {a : Settings}

theorem assignments_perm (lead : Option String) (perm : env.Perm env') :
    (assignments lead env).Perm (assignments lead env') := by
  unfold assignments
  split
  · exact .refl _
  · exact .refl _
  · exact perm.filterMap _

theorem ofEntries_reordered {t : Array Node} (h : es.Reordered fs) (made : ofEntries path ⟨.map es, t⟩ es = .ok a) :
    ∃ b, ofEntries path ⟨.map fs, t⟩ fs = .ok b ∧ a.Same b := by
  induction h with
  | refl => exact ⟨a, made, .refl a⟩
  | tail _ step ih =>
      obtain ⟨b, hb, hab⟩ := ih
      obtain ⟨hkeys, hread⟩ := ofEntries_eq_ok.mp hb
      obtain ⟨c, hc, hbc⟩ := shape_steady.reread step hread
      exact ⟨c, ofEntries_eq_ok.mpr ⟨step.perm_keys.all_eq.symm.trans hkeys, hc⟩, hab.trans hbc⟩

theorem ofDocument_perm (plain : d.Plain) (perm : env.Perm env') (unambiguous : Unambiguous (assignments lead env))
    (made : ofDocument path lead env d = .ok a) : ∃ b, ofDocument path lead env' d = .ok b ∧ a.Same b := by
  obtain ⟨es, hes, -, hentries⟩ := exists_entries_of_ofDocument plain made
  rw [hentries] at made ⊢
  exact ofEntries_reordered (Entries.overlay_perm (assignments_perm lead perm) unambiguous hes) made

theorem ofDocument_filter (path lead : String) (env : Environment) (d : Document) :
    ofDocument path (some lead) (env.filter (Naming.usual lead).counts) d = ofDocument path (some lead) env d := by
  by_cases hlead : lead = ""
  · subst hlead
    rfl
  · simp only [ofDocument, override_filter]

theorem ofDocument_of_no_lead (h : lead = none ∨ lead = some "") (path : String) (env env' : Environment) :
    ofDocument path lead env = ofDocument path lead env' := by
  obtain rfl | rfl := h <;> rfl

end Settings

namespace SettingsQuery

variable {q : SettingsQuery} {fs : Files} {env env' : Environment} {a : LoadedSettings}

theorem load_of_perm (perm : env.Perm env') (unambiguous : Unambiguous (Settings.assignments q.lead env))
    (plain : ∀ text d, q.text? fs = some text → Yaml.read text = .ok d → d.Plain) (h : q.load fs env = .ok a) :
    ∃ b, q.load fs env' = .ok b ∧ a.Same b := by
  obtain ⟨text, d, path, htext, hread, hload, others⟩ := exists_document_of_load h
  obtain ⟨b, hb, hab⟩ := Settings.ofDocument_perm (plain text d htext hread) perm unambiguous hload
  exact ⟨⟨b, a.projectRoot⟩, others env' b hb, hab, rfl⟩

theorem load_perm (perm : env.Perm env') (unambiguous : Unambiguous (Settings.assignments q.lead env))
    (plain : ∀ text d, q.text? fs = some text → Yaml.read text = .ok d → d.Plain) :
    Alike LoadedSettings.Same (q.load fs env) (q.load fs env') := by
  cases h : q.load fs env with
  | ok a =>
      obtain ⟨b, hb, hab⟩ := load_of_perm perm unambiguous plain h
      exact hb ▸ .ok hab
  | error e =>
      cases h' : q.load fs env' with
      | error e' => exact .error e e'
      | ok b =>
          -- The other way round the paths part as well, so that the first attempt comes to something, too.
          have unambiguous' := (Settings.assignments_perm q.lead perm).pairwise unambiguous fun apart => apart.symm
          obtain ⟨a, ha, -⟩ := load_of_perm perm.symm unambiguous' plain h'
          rw [h] at ha
          cases ha

theorem load_congr (h : ∀ path, Settings.ofDocument path q.lead env = Settings.ofDocument path q.lead env') :
    q.load fs env = q.load fs env' := by
  simp only [load, h]

theorem load_filter (q : SettingsQuery) (fs : Files) (env : Environment) {lead : String} (hlead : q.lead = some lead) :
    q.load fs (env.filter (Naming.usual lead).counts) = q.load fs env :=
  load_congr fun path => hlead ▸ funext (Settings.ofDocument_filter path lead env)

/-- Variables, none of whose paths leads through another, can come in any order: a document without anything in two
places, and the settings loaded from it, are the same but for the order of entries. Variables whose names do not
begin as told make no difference at all, and none does where nothing is told. -/
theorem load_unordered (q : SettingsQuery) (fs : Files) (env env' : Environment) :
    (env.Perm env' →
      (∀ (n : Naming) (d : Document) (es : Entries), d.Plain → d.root = .map es → Unambiguous (n.assignments env) →
        Alike Document.Reordered (d.override? n env) (d.override? n env')) ∧
      (Unambiguous (Settings.assignments q.lead env) →
        (∀ text d, q.text? fs = some text → Yaml.read text = .ok d → d.Plain) →
          Alike LoadedSettings.Same (q.load fs env) (q.load fs env'))) ∧
    (∀ n : Naming, env.filter n.counts = env'.filter n.counts →
      (∀ d : Document, d.override? n env = d.override? n env') ∧
      (∀ lead, n = .usual lead → q.lead = some lead → q.load fs env = q.load fs env')) ∧
    (q.lead = none ∨ q.lead = some "" → q.load fs env = q.load fs env') := by
  refine ⟨fun perm => ⟨fun n d es plain root unambiguous => override?_perm plain root perm unambiguous,
    load_perm perm⟩, fun n same => ⟨fun d => ?_, ?_⟩, fun hlead => ?_⟩
  · rw [← override?_filter n d env, same, override?_filter]
  · rintro lead rfl hlead
    rw [← load_filter q fs env hlead, same, load_filter q fs env' hlead]
  · exact load_congr fun path => Settings.ofDocument_of_no_lead hlead path env env'

def headerVariables : Environment := [("APP__HOSTS__A__HEADERS__Y", "v"), ("APP__HOSTS__A__HEADERS__Z", "w")]

theorem headers_unordered : ∃ d a b, Yaml.read plainText.toList = .ok d ∧
    Alike Document.Reordered (d.override? (.usual "APP") headerVariables)
      (d.override? (.usual "APP") headerVariables.reverse) ∧
    sole.load (soleFile plainText) headerVariables = .ok a ∧
    sole.load (soleFile plainText) headerVariables.reverse = .ok b ∧ a.Same b ∧ a.settings.hosts ≠ b.settings.hosts ∧
    sole.load (soleFile plainText) (("HOME", "/") :: headerVariables) = .ok a ∧
    { sole with lead := none }.load (soleFile plainText) headerVariables =
      { sole with lead := none }.load (soleFile plainText) [] := by
  obtain ⟨d, hd, hentries⟩ := exists_of_toOption (show
    (Yaml.read plainText.toList).toOption.map (·.entries?.isSome) = some true by decide +kernel)
  obtain ⟨a, ha, hhosts⟩ := exists_of_toOption (show
    (sole.load (soleFile plainText) headerVariables).toOption.map (·.settings.hosts) =
      some [("a", ⟨"http://a", [("y", "v"), ("z", "w")], .default⟩)] by decide +kernel)
  obtain ⟨b, hb, hhosts'⟩ := exists_of_toOption (show
    (sole.load (soleFile plainText) headerVariables.reverse).toOption.map (·.settings.hosts) =
      some [("a", ⟨"http://a", [("z", "w"), ("y", "v")], .default⟩)] by decide +kernel)
  have hsole : sole.text? (soleFile plainText) = some plainText.toList := by decide +kernel
  have hplain : d.Plain := Yaml.plain_of_read (by decide +kernel) (by decide +kernel) hd
  have hassignments : (Naming.usual "APP").assignments headerVariables =
      [(["hosts", "a", "headers", "y"], "v"), (["hosts", "a", "headers", "z"], "w")] := by decide +kernel
  have unambiguous : Unambiguous ((Naming.usual "APP").assignments headerVariables) := hassignments ▸ by decide
  obtain ⟨perm, -, -⟩ := load_unordered sole (soleFile plainText) headerVariables headerVariables.reverse
  obtain ⟨hdocument, hload⟩ := perm (List.reverse_perm _).symm
  have hsame := hload unambiguous fun text d' htext hread => by
    obtain rfl : plainText.toList = text := Option.some.inj (hsole.symm.trans htext)
    obtain rfl : d = d' := Except.ok.inj (hd.symm.trans hread)
    exact hplain
  rw [ha, hb] at hsame
  obtain ⟨-, filter, -⟩ := load_unordered sole (soleFile plainText) (("HOME", "/") :: headerVariables) headerVariables
  obtain ⟨-, -, hnone⟩ := load_unordered { sole with lead := none } (soleFile plainText) headerVariables []
  refine ⟨d, a, b, hd, ?_, ha, hb, ?_, hhosts ▸ hhosts' ▸ by decide, ?_, hnone (.inl rfl)⟩
  · obtain ⟨es, hes⟩ := Option.isSome_iff_exists.mp hentries
    exact hdocument (.usual "APP") d es hplain (hplain.root_eq hes) unambiguous
  · cases hsame with
    | ok related => exact related
  · obtain ⟨-, hother⟩ := filter (.usual "APP") (by decide +kernel)
    exact (hother "APP" rfl rfl).trans ha

end SettingsQuery

end LedgerQuery
