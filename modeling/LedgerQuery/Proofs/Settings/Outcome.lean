import LedgerQuery.Proofs.Document.Sharing
import LedgerQuery.Proofs.Settings.Load

namespace LedgerQuery

theorem Scalar.all_isName_addKey (name : String) (keys : List Scalar) :
    (addKey (.text name) keys).all isName = keys.all isName := by
  induction keys with
  | nil => rfl
  | cons k rest ih =>
      rw [addKey]
      split
      · rfl
      · rw [List.all_cons, List.all_cons, ih]

namespace Entries

theorem named_put (name : String) (x : Node) (es : Entries) : (es.put (.text name) x).named = es.named := by
  rw [named, map_fst_put, Scalar.all_isName_addKey, named]

theorem named_set (table : Array Node) (x : Node) (path : List String) (es : Entries) :
    (set table x path es).1.named = es.named := by
  cases path with
  | nil => rfl
  | cons key rest =>
      obtain heq | ⟨y, heq⟩ := set_cons table x es key rest
      · rw [heq]
      · rw [heq, named_put]

end Entries

namespace Document

/-- All keys at the root, if there are any, can name settings. -/
def Named (d : Document) : Prop := ∀ es, d.entries? = some es → es.named = true

theorem named_setShared {table : Array Node} (x : Node) {d : Detour} (hmap : isSharedMap table d.index = true)
    (i : Nat) : (sharedEntries (setShared x table d) i).named = (sharedEntries table i).named := by
  refine setShared_keeps (Q := fun u => (sharedEntries u i).named = (sharedEntries table i).named)
    (R := fun _ => True) (fun u d hu _ hmap => ⟨?_, fun _ _ => trivial⟩) rfl trivial hmap
  rw [sharedEntries_setIfInBounds hmap, ← hu]
  split
  · rename_i hi
    rw [Entries.named_set, hi]
  · rfl

theorem entries?_set_map (table : Array Node) (x : Node) (path : List String) (es : Entries) :
    (set x path ⟨.map es, table⟩).entries? = some (Entries.set table x path es).1 := by
  rw [set]
  dsimp only
  rcases Entries.set table x path es with ⟨fs, _ | rest⟩ <;> rfl

variable {d : Document}

theorem named_set (x : Node) (path : List String) (d : Document) :
    (d.set x path).entries?.map Entries.named = d.entries?.map Entries.named := by
  obtain ⟨root, table⟩ := d
  cases root with
  | leaf s => rfl
  | list items => rfl
  | map es =>
      rw [entries?_set_map]
      exact congrArg some (Entries.named_set table x path es)
  | shared i =>
      rw [set]
      dsimp only
      split
      · rename_i hmap
        rw [entries?_shared, entries?_shared, isSharedMap_setShared hmap, if_pos hmap, if_pos hmap]
        exact congrArg some (named_setShared x hmap i)
      · rfl

theorem named_override (n : Naming) (env : Environment) (d : Document) :
    (d.override n env).entries?.map Entries.named = d.entries?.map Entries.named := by
  induction env generalizing d with
  | nil => rfl
  | cons var env ih =>
      rw [override, List.foldl_cons]
      refine (ih _).trans ?_
      rw [applyVariable]
      split
      · exact named_set _ _ d
      · rfl

theorem named_under (lead : Option String) (env : Environment) (d : Document) :
    (d.under lead env).entries?.map Entries.named = d.entries?.map Entries.named := by
  unfold under
  split
  · rfl
  · rfl
  · exact named_override _ env d

theorem named_filled : d.filled.Named ↔ d.Named := by
  rw [filled]
  split
  · rename_i hvoid
    refine iff_of_true (fun es hes => ?_) fun es hes => ?_
    · cases hes
      rfl
    · have hempty : es = [] := by
        rw [isVoid] at hvoid
        rw [entries?] at hes
        split at hes
        · rename_i heq
          rw [heq] at hvoid
          cases hes
          exact List.isEmpty_iff.mp hvoid
        · cases hes
      rw [hempty]
      rfl
  · rfl

end Document

namespace Settings

variable {path : String} {lead : Option String} {env : Environment} {d : Document}

theorem ofEntries_of_named {es : Entries} (h : es.named = true) {f : Failure} (hf : ofEntries path d es = .error f) :
    ∃ e, f = .settings e := by
  rw [ofEntries_eq, if_pos h] at hf
  cases hread : shape.read d.view with
  | ok settings =>
      rw [hread] at hf
      cases hf
  | error faults =>
      rw [hread] at hf
      cases hf
      exact ⟨_, rfl⟩

theorem ofEntries_of_not_named {es : Entries} (h : es.named = false) :
    ofEntries path d es = .error (.document .nameNotText) := by
  rw [ofEntries_eq, if_neg (Bool.eq_false_iff.mp h)]

theorem ofDocument_cases (path : String) (lead : Option String) (env : Environment) (d : Document) :
    d.filled.entries? = none ∧ ofDocument path lead env d = .error (.settings (.notMapping path)) ∨
      ∃ es fs, d.filled.entries? = some es ∧ fs.named = es.named ∧
        ofDocument path lead env d = ofEntries path (d.filled.under lead env) fs := by
  rw [ofDocument_eq]
  have hnamed := Document.named_under lead env d.filled
  cases hes : d.filled.entries? with
  | none => exact .inl ⟨rfl, rfl⟩
  | some es =>
      rw [hes] at hnamed
      obtain ⟨fs, hfs, heq⟩ := Option.map_eq_some_iff.mp hnamed
      rw [hfs]
      exact .inr ⟨es, fs, rfl, heq, rfl⟩

theorem ofDocument_of_named (h : d.Named) {f : Failure} (hf : ofDocument path lead env d = .error f) :
    ∃ e, f = .settings e := by
  obtain ⟨-, heq⟩ | ⟨es, fs, hes, hfs, heq⟩ := ofDocument_cases path lead env d
  · rw [heq] at hf
    cases hf
    exact ⟨_, rfl⟩
  · have hkeys := Document.named_filled.mpr h es hes
    exact ofEntries_of_named (hfs.trans hkeys) (heq ▸ hf)

theorem ofDocument_of_not_named (h : ¬d.Named) : ofDocument path lead env d = .error (.document .nameNotText) := by
  obtain ⟨hnone, -⟩ | ⟨es, fs, hes, hfs, heq⟩ := ofDocument_cases path lead env d
  · refine absurd (Document.named_filled.mp fun es hes => ?_) h
    rw [hnone] at hes
    cases hes
  · rw [heq]
    refine ofEntries_of_not_named (hfs.trans (Bool.eq_false_iff.mpr fun hnamed => h (Document.named_filled.mp ?_)))
    intro gs hgs
    rw [hes] at hgs
    cases hgs
    exact hnamed

end Settings

namespace SettingsQuery

variable {q : SettingsQuery} {fs : Files} {p : Path}

theorem places_of_absolute (fs : Files) (absolute : q.location = some (.absolute p)) :
    q.places fs = if p.hasNul then .error (.incident ⟨"ValueError", "embedded null byte"⟩)
      else .ok (p, q.projectRoot.getD p.parent) := by
  rw [places, absolute]
  dsimp only [bind, Except.bind, pure, Except.pure]
  split <;> rfl

theorem load_of_hasNul (fs : Files) (env : Environment) (absolute : q.location = some (.absolute p))
    (h : p.hasNul = true) : q.load fs env = .error (.incident ⟨"ValueError", "embedded null byte"⟩) := by
  rw [load, places_of_absolute fs absolute, if_pos h]
  rfl

theorem load_of_unreadable (env : Environment) (absolute : q.location = some (.absolute p)) (h : p.hasNul = false)
    {e : FileError} (unreadable : fs.read p = .error e) :
    q.load fs env = .error (.settings (.unreadable p.text e)) := by
  rw [load, places_of_absolute fs absolute, if_neg (Bool.eq_false_iff.mp h)]
  dsimp only [bind, Except.bind]
  rw [unreadable]
  rfl

theorem load_of_read (env : Environment) (absolute : q.location = some (.absolute p)) (h : p.hasNul = false)
    {content : List UInt8} {d : Document} (hcontent : fs.read p = .ok content)
    (hd : Document.ofBytes content = .ok d) :
    q.load fs env = (Settings.ofDocument p.text q.lead env d).map (⟨·, q.projectRoot.getD p.parent⟩) := by
  rw [load, places_of_absolute fs absolute, if_neg (Bool.eq_false_iff.mp h)]
  dsimp only [bind, Except.bind]
  rw [hcontent]
  dsimp only [Except.mapError]
  rw [hd]
  rfl

theorem load_of_not_named (env : Environment) (absolute : q.location = some (.absolute p)) (h : p.hasNul = false)
    {content : List UInt8} {d : Document} (hcontent : fs.read p = .ok content) (hd : Document.ofBytes content = .ok d)
    (named : ¬d.Named) : q.load fs env = .error (.document .nameNotText) := by
  rw [load_of_read env absolute h hcontent hd, Settings.ofDocument_of_not_named named]
  rfl

theorem load_of_named (env : Environment) (absolute : q.location = some (.absolute p)) (h : p.hasNul = false)
    (named : ∀ content, fs.read p = .ok content → ∃ d, Document.ofBytes content = .ok d ∧ d.Named) {f : Failure}
    (hf : q.load fs env = .error f) : ∃ e, f = .settings e := by
  cases hread : fs.read p with
  | error e =>
      rw [load_of_unreadable env absolute h hread] at hf
      cases hf
      exact ⟨_, rfl⟩
  | ok content =>
      obtain ⟨d, hd, hnamed⟩ := named content hread
      rw [load_of_read env absolute h hread hd] at hf
      cases hmade : Settings.ofDocument p.text q.lead env d with
      | ok settings =>
          rw [hmade] at hf
          cases hf
      | error f' =>
          rw [hmade] at hf
          cases hf
          exact Settings.ofDocument_of_named hnamed hmade

/-- Where a file that can be read holds a document, loading fails in the words of the settings only, unless its path
has a NUL in it or a key at the root of the document is no name; what fails then fails in one of two other ways. -/
theorem load_fails (fs : Files) (env : Environment) (absolute : q.location = some (.absolute p))
    (accepted : ∀ content, fs.read p = .ok content → ∃ d, Document.ofBytes content = .ok d) :
    ((∀ f, q.load fs env = .error f → ∃ e, f = .settings e) ↔
      p.hasNul = false ∧ ∀ content d, fs.read p = .ok content → Document.ofBytes content = .ok d → d.Named) ∧
    ∀ f, q.load fs env = .error f → (∃ e, f = .settings e) ∨ f = .document .nameNotText ∨
      f = .incident ⟨"ValueError", "embedded null byte"⟩ := by
  by_cases h : p.hasNul = false ∧
    ∀ content d, fs.read p = .ok content → Document.ofBytes content = .ok d → d.Named
  · have hstated (f : Failure) (hf : q.load fs env = .error f) : ∃ e, f = .settings e := by
      refine load_of_named env absolute h.1 (fun content hcontent => ?_) hf
      obtain ⟨d, hd⟩ := accepted content hcontent
      exact ⟨d, hd, h.2 content d hcontent hd⟩
    exact ⟨iff_of_true hstated h, fun f hf => .inl (hstated f hf)⟩
  · obtain ⟨f, hload, hf⟩ : ∃ f, q.load fs env = .error f ∧
        (f = .document .nameNotText ∨ f = .incident ⟨"ValueError", "embedded null byte"⟩) := by
      cases hnul : p.hasNul with
      | true => exact ⟨_, load_of_hasNul fs env absolute hnul, .inr rfl⟩
      | false =>
          simp only [hnul, true_and, not_forall] at h
          obtain ⟨content, d, hcontent, hd, named⟩ := h
          exact ⟨_, load_of_not_named env absolute hnul hcontent hd named, .inl rfl⟩
    rw [hload]
    refine ⟨iff_of_false (fun hall => ?_) h, ?_⟩
    · obtain ⟨e, rfl⟩ := hall f rfl
      obtain heq | heq := hf <;> cases heq
    · rintro g ⟨⟩
      exact .inr hf

def numberedText : String := "version: 1\nhosts: \x7b1: \x7bbase_url: http://a\x7d, ~: []\x7d\n"

theorem soleFile_accepted {text : String} {d : Document} (h : Document.ofBytes text.toUTF8.data.toList = .ok d) :
    ∀ content, (soleFile text).read ⟨"/", ["settings.yaml"]⟩ = .ok content → ∃ d, Document.ofBytes content = .ok d := by
  intro content hcontent
  cases hcontent
  exact ⟨d, h⟩

/-- Below the root keys of all types are turned down in the words of the settings. -/
theorem numbered_fails : ∃ e, sole.load (soleFile numberedText) plainVariables = .error (.settings e) := by
  obtain ⟨d, hd, hnamed⟩ := exists_of_toOption (show
    (Document.ofBytes numberedText.toUTF8.data.toList).toOption.map (fun d => d.entries?.map Entries.named) =
      some (some true) by decide +kernel)
  obtain ⟨stated, -⟩ := load_fails _ plainVariables (rfl : sole.location = some _) (soleFile_accepted hd)
  have hfails : (sole.load (soleFile numberedText) plainVariables).isOk = false := by decide +kernel
  cases hload : sole.load (soleFile numberedText) plainVariables with
  | ok loaded =>
      rw [hload] at hfails
      cases hfails
  | error f =>
      have named : d.Named := fun es hes => by simpa [hes] using hnamed
      have hall (content : List UInt8) (d' : Document)
          (hcontent : (soleFile numberedText).read ⟨"/", ["settings.yaml"]⟩ = .ok content)
          (hd' : Document.ofBytes content = .ok d') : d'.Named := by
        cases hcontent
        cases hd.symm.trans hd'
        exact named
      obtain ⟨e, rfl⟩ := stated.mpr ⟨by decide +kernel, hall⟩ f hload
      exact ⟨e, rfl⟩

def strayText : String := "1: a\nversion: 1\nhosts: \x7b\x7d\n"

/-- The number is no name of a setting, and it is not in the words of the settings that this is told. -/
theorem stray_key_fails : ∃ content d, (soleFile strayText).read ⟨"/", ["settings.yaml"]⟩ = .ok content ∧
    Document.ofBytes content = .ok d ∧ sole.load (soleFile strayText) [] = .error (.document .nameNotText) := by
  obtain ⟨d, hd, hnamed⟩ := exists_of_toOption (show
    (Document.ofBytes strayText.toUTF8.data.toList).toOption.map (fun d => d.entries?.map Entries.named) =
      some (some false) by decide +kernel)
  refine ⟨_, d, rfl, hd, load_of_not_named [] rfl (by decide +kernel) rfl hd fun named => ?_⟩
  obtain ⟨es, hes, hfalse⟩ := Option.map_eq_some_iff.mp hnamed
  rw [named es hes] at hfalse
  cases hfalse

end SettingsQuery

end LedgerQuery
