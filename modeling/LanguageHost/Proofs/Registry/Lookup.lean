import Mathlib.Data.List.Induction
import Mathlib.Data.List.Nodup
import LanguageHost.Config.Lookup
import LanguageHost.Proofs.Table

/-!
The ways in which an entry is found. An entry of the catalogue stands under each of its languages, and its
name is its own. So what is found for a file is found for its language too, unless the user prefers another
package for that language: a preference counts for the language, and is not looked at for a file.
-/
namespace LanguageHost

namespace RegistryEntry

/-- The languages under which an entry stands; its name, when it has none. -/
def places (e : RegistryEntry) : List String := if e.languages.isEmpty then [e.name] else e.languages

theorem primaryLanguage_mem_places (e : RegistryEntry) : e.primaryLanguage ∈ e.places := by
  unfold places primaryLanguage
  cases e.languages with
  | nil => exact List.mem_singleton_self _
  | cons language languages => exact List.mem_cons_self

end RegistryEntry

namespace Catalogue

/-- No language is one of two entries. -/
def Apart (es : List RegistryEntry) : Prop := es.Pairwise fun a b => ∀ language ∈ a.places, language ∉ b.places

instance (es : List RegistryEntry) : Decidable (Apart es) := inferInstanceAs (Decidable (List.Pairwise _ es))

variable {es : List RegistryEntry} {e : RegistryEntry} {language : String}

theorem byLanguage_concat (es : List RegistryEntry) (e : RegistryEntry) :
    byLanguage (es ++ [e]) = (byLanguage es).insertAll (e.places.map fun language => (language, e)) := by
  have places (t : Table RegistryEntry) : t.insertAll (e.places.map fun language => (language, e)) =
      if e.languages.isEmpty then t.insert e.name e
      else e.languages.foldl (fun t language => t.insert language e) t := by
    unfold RegistryEntry.places
    split
    · rfl
    · rw [Table.insertAll, List.foldl_map]
  simp [byLanguage, places]

theorem mem_of_mem_byLanguage (there : (language, e) ∈ byLanguage es) : e ∈ es := by
  induction es using List.reverseRecOn with
  | nil => cases there
  | append_singleton es last ih =>
    rw [byLanguage_concat] at there
    rcases Table.mem_insertAll there with before | entered
    · exact List.mem_append_left _ (ih before)
    · obtain ⟨_, -, same⟩ := List.mem_map.mp entered
      cases same
      exact List.mem_append_right _ (List.mem_singleton_self _)

/-- Entries that share no language are found under each of theirs. -/
theorem get?_byLanguage (apart : Apart es) (there : e ∈ es) (own : language ∈ e.places) :
    (byLanguage es).get? language = some e := by
  induction es using List.reverseRecOn with
  | nil => cases there
  | append_singleton es last ih =>
    obtain ⟨before, -, across⟩ := List.pairwise_append.mp apart
    rw [byLanguage_concat]
    rcases List.mem_append.mp there with inside | isLast
    · have other : language ∉ Table.keys (last.places.map fun language => (language, last)) := by
        simpa [Table.keys] using across e inside last (List.mem_singleton_self _) language own
      rw [Table.get?_insertAll_of_notMem other]
      exact ih before inside
    · cases List.mem_singleton.mp isLast
      exact Table.get?_insertAll_of_mem own _ _

/-! The entries that there are. -/

def defaultEntries : List RegistryEntry := [typescript, python, rust, go]

def registryEntries : List RegistryEntry :=
  [bash, lua, markdown, nix, pythonServer, ruby, toml, templ, yaml]

theorem defaults_eq : defaults = byLanguage defaultEntries := rfl

theorem registry_eq : registry = byLanguage registryEntries := rfl

theorem apart_defaults : Apart defaultEntries := by decide +kernel

theorem apart_registry : Apart registryEntries := by decide +kernel

theorem nodup_names : ((defaultEntries ++ registryEntries).map RegistryEntry.name).Nodup := by decide +kernel

/-- An entry of the registry that stands behind a default has no extension that is not the default's too. -/
theorem hidden_by_defaults : ∀ e ∈ registryEntries, (defaults.get? e.primaryLanguage).isSome →
    ∀ ending ∈ e.extensions, ∃ first ∈ defaults.map Prod.snd, ending ∈ first.extensions := by
  decide +kernel

end Catalogue

namespace Lookup
open Catalogue

variable {l : Lookup} {e other : RegistryEntry} {ending name : String}

theorem mem_of_mem_entries (there : e ∈ entries) : e ∈ defaultEntries ++ registryEntries := by
  obtain ⟨⟨language, e⟩, listed, rfl⟩ := List.mem_map.mp there
  rw [List.mem_append] at listed ⊢
  exact listed.imp mem_of_mem_byLanguage mem_of_mem_byLanguage

/-! By name. -/

theorem byName_eq_ok_iff : byName name = .ok e ↔ e ∈ entries ∧ e.name = name := by
  unfold byName
  constructor
  · intro found
    split at found
    · next first searched =>
      cases found
      exact ⟨List.mem_of_find?_eq_some searched, by simpa using List.find?_some searched⟩
    · cases found
  · rintro ⟨there, rfl⟩
    obtain ⟨first, searched⟩ : ∃ first, entries.find? (·.name == e.name) = some first := by
      rw [← Option.isSome_iff_exists, List.find?_isSome]
      exact ⟨e, there, beq_self_eq_true _⟩
    have same : first.name = e.name := by simpa using List.find?_some searched
    have inside := mem_of_mem_entries (List.mem_of_find?_eq_some searched)
    rw [searched, List.inj_on_of_nodup_map nodup_names inside (mem_of_mem_entries there) same]

theorem byName_of_absent (absent : ∀ e ∈ entries, e.name ≠ name) :
    byName name = .error (.config ("LSP '" ++ name ++ "' not found")) := by
  unfold byName
  rw [List.find?_eq_none.mpr (by simpa using absent)]

/-! By extension. -/

/-- What is found for an extension is found for its language where the user has no preference. -/
theorem get?_of_byExtension (found : byExtension ending = .ok e) :
    defaults.get? e.primaryLanguage = some e ∨
      defaults.get? e.primaryLanguage = none ∧ registry.get? e.primaryLanguage = some e := by
  unfold byExtension at found
  split at found
  swap
  · cases found
  next first searched =>
  cases found
  have serves : ending ∈ e.extensions := by simpa using List.find?_some searched
  have own := e.primaryLanguage_mem_places
  -- an entry behind a default is passed over, as the default is looked at first
  have before : e ∈ defaultEntries ∨ ∀ first ∈ defaults.map Prod.snd, ending ∉ first.extensions := by
    rw [entries, List.map_append, List.find?_append] at searched
    cases among : (defaults.map Prod.snd).find? fun e => e.extensions.contains ending with
    | none => exact .inr (by simpa using List.find?_eq_none.mp among)
    | some first =>
      rw [among] at searched
      cases searched
      obtain ⟨⟨language, first⟩, inside, rfl⟩ := List.mem_map.mp (List.mem_of_find?_eq_some among)
      exact .inl (mem_of_mem_byLanguage inside)
  rcases List.mem_append.mp (mem_of_mem_entries (List.mem_of_find?_eq_some searched)) with
    inDefaults | inRegistry
  · exact .inl (get?_byLanguage apart_defaults inDefaults own)
  · rcases before with inDefaults | unserved
    · exact .inl (get?_byLanguage apart_defaults inDefaults own)
    · right
      refine ⟨?_, get?_byLanguage apart_registry inRegistry own⟩
      by_contra taken
      obtain ⟨first, inside, same⟩ :=
        hidden_by_defaults e inRegistry (Option.isSome_iff_ne_none.mpr taken) ending serves
      exact unserved first inside same

theorem byExtension_of_byFile {file : Path} (found : byFile file = .ok e) :
    ∃ ending, byExtension ending = .ok e := by
  unfold byFile at found
  split at found
  · exact ⟨_, found⟩
  · cases found

theorem mem_of_byExtension (found : byExtension ending = .ok e) : e ∈ entries := by
  unfold byExtension at found
  split at found
  · next searched =>
    cases found
    exact List.mem_of_find?_eq_some searched
  · cases found

/-! By language. -/

theorem byLanguage_of_preferred {language : String} (preferred : l.user.preferred.get? language = some name) :
    l.byLanguage language = byName name := by
  unfold byLanguage
  rw [preferred]

/-- What is found for a file or an extension is found for its language too, just if the user prefers no other
package for that language. If he does, the language has the package of that name, or an error when there is
none, while the file keeps what it had. -/
theorem languages_agree_unless_redirected (l : Lookup) (e : RegistryEntry)
    (found : (∃ file, byFile file = .ok e) ∨ ∃ ending, byExtension ending = .ok e) :
    (l.byLanguage e.primaryLanguage = .ok e ↔
      ∀ name, l.user.preferred.get? e.primaryLanguage = some name → name = e.name) ∧
    ∀ name, l.user.preferred.get? e.primaryLanguage = some name → name ≠ e.name →
      (∃ other ∈ entries, other.name = name ∧ l.byLanguage e.primaryLanguage = .ok other) ∨
      (∀ other ∈ entries, other.name ≠ name) ∧
        l.byLanguage e.primaryLanguage = .error (.config ("LSP '" ++ name ++ "' not found")) := by
  obtain ⟨ending, found⟩ : ∃ ending, byExtension ending = .ok e := by
    rcases found with ⟨_, found⟩ | found
    · exact byExtension_of_byFile found
    · exact found
  constructor
  · cases preferred : l.user.preferred.get? e.primaryLanguage with
    | none =>
      refine iff_of_true ?_ (by rintro _ ⟨⟩)
      unfold byLanguage
      rw [preferred]
      rcases get?_of_byExtension found with first | ⟨absent, second⟩
      · simp [first]
      · simp [absent, second]
    | some name =>
      rw [byLanguage_of_preferred preferred, byName_eq_ok_iff]
      constructor
      · rintro ⟨-, same⟩ _ ⟨⟩
        exact same.symm
      · intro same
        exact ⟨mem_of_byExtension found, (same name rfl).symm⟩
  · intro name preferred _
    rw [byLanguage_of_preferred preferred]
    by_cases known : ∃ other ∈ entries, other.name = name
    · obtain ⟨other, there, same⟩ := known
      exact .inl ⟨other, there, same, byName_eq_ok_iff.mpr ⟨there, same⟩⟩
    · right
      have absent : ∀ other ∈ entries, other.name ≠ name := by simpa using known
      exact ⟨absent, byName_of_absent absent⟩

/-- A user who prefers another package for a language, and one who prefers a package that there is not: for a
file of that language both are still given the default. -/
theorem redirected_python_splits :
    let preferring (name : String) : Lookup := ⟨{ UserConfig.empty with preferred := [("python", name)] }⟩
    byFile ⟨"src/main.py"⟩ = .ok python ∧
      (preferring "python-lsp-server").byLanguage python.primaryLanguage ≠ .ok python ∧
      (preferring "python-lsp-server").byLanguage python.primaryLanguage = .ok pythonServer ∧
      (preferring "none").byLanguage python.primaryLanguage = .error (.config "LSP 'none' not found") := by
  intro preferring
  have found : byFile ⟨"src/main.py"⟩ = .ok python := by rfl
  obtain ⟨agrees, -⟩ := languages_agree_unless_redirected (preferring "python-lsp-server") python
    (.inl ⟨_, found⟩)
  obtain ⟨-, other⟩ := languages_agree_unless_redirected (preferring "none") python (.inl ⟨_, found⟩)
  refine ⟨found, fun same => ?_, rfl, ?_⟩
  · exact absurd (agrees.mp same "python-lsp-server" rfl) (by decide)
  · rcases other "none" rfl (by decide) with ⟨other, there, named, -⟩ | ⟨-, missing⟩
    · exact absurd named ((by decide +kernel : ∀ e ∈ entries, e.name ≠ "none") other there)
    · exact missing

end Lookup

end LanguageHost
