import LanguageHost.Package.Identifier
import LanguageHost.Proofs.Table
import LanguageHost.Proofs.Text.Blank

/-! What comes of reading an identifier. The text is first cut into parts, and only then are the parts
decoded; a package that was read has a name and a version, its options are in order and none of them could
be taken for a repository or a pin. -/
namespace LanguageHost

namespace Ecosystem

theorem ofScheme?_scheme (e : Ecosystem) : ofScheme? e.scheme = some e := by
  cases e <;> decide

theorem slash_not_mem_scheme (e : Ecosystem) : '/' ∉ e.scheme.toList := by
  cases e <;> decide

end Ecosystem

namespace Package

/-- The parts of an identifier, as they are written. -/
structure Parts where
  ecosystem : Ecosystem
  name : List Char
  version : List Char
  pairs : List (List Char)
  fragment : Option (List Char)

/-- The cuts behind the scheme. -/
def Parts.ofPath (ecosystem : Ecosystem) (path : List Char) : Parts :=
  let (path, fragment) := if ecosystem = .golang then cutFragment path else (path, none)
  let (body, query) := (Text.cut? '?' path).getD (path, [])
  let (name, version) := cutVersion body
  ⟨ecosystem, name, version, queryPairs query, fragment⟩

def Parts.ofId? (id : List Char) : Option Parts := do
  let rest ← Text.afterStart? "pkg:".toList (Text.trimmed id)
  let (scheme, path) ← Text.cut? '/' rest
  let ecosystem ← Ecosystem.ofScheme? (String.ofList scheme)
  some (ofPath ecosystem path)

/-- What a decoded pair adds to the query. -/
def Query.enter (version : String) (q : Query) (key value : String) : Option Query :=
  if key = "repository_url" then some { q with repository := some value }
  else if (key = "rev" ∨ key = "tag") ∧ value = "true" then
    if q.pin.isSome then none
    else some { q with pin := some (if key = "rev" then .revision version else .tag version) }
  else some { q with options := q.options.insert key value }

theorem Query.add_eq (version : String) (q : Query) (pair : List Char) :
    q.add version pair = (Percent.decode? ((Text.cut? '=' pair).getD (pair, [])).2).bind fun value =>
      q.enter version (String.ofList ((Text.cut? '=' pair).getD (pair, [])).1) (String.ofList value) :=
  rfl

/-- The package that decoded parts make. -/
def assemble (id : String) (ecosystem : Ecosystem) (name version : String) (q : Query)
    (options : Table String) : Package :=
  let repository :=
    if ecosystem = .github ∧ q.repository.isNone then some ("https://github.com/" ++ name)
    else q.repository
  let pin := match q.pin with
    | some pin => some pin
    | none => repository.map fun _ => Pin.infer version
  ⟨id, ecosystem, name, version, repository, pin, options⟩

def Parts.read? (id : String) (t : Parts) : Option Package := do
  let name ← Percent.decode? t.name
  let version ← Percent.decode? t.version
  if name.isEmpty ∨ version.isEmpty ∨ (t.ecosystem = .github ∧ !isOwnerRepo name) then none
  else
    let q ← t.pairs.foldlM (Query.add (String.ofList version)) ⟨[], none, none⟩
    let options ← addSubpath q.options t.fragment
    pure (assemble id t.ecosystem (String.ofList name) (String.ofList version) q options)

theorem ofId?_eq (id : String) : ofId? id = (Parts.ofId? id.toList).bind (Parts.read? id) := by
  simp only [ofId?, Parts.ofId?]
  cases Text.afterStart? "pkg:".toList (Text.trimmed id.toList) with
  | none => rfl
  | some rest =>
    simp only [bind, Option.bind_some]
    cases Text.cut? '/' rest with
    | none => rfl
    | some cut =>
      obtain ⟨scheme, path⟩ := cut
      simp only [Option.bind_some]
      cases Ecosystem.ofScheme? (String.ofList scheme) with
      | none => rfl
      | some e => rfl

/-- The parts are decoded to a name, a version and a query, and the package is what these make. -/
structure Parts.Reads (t : Parts) (id : String) (name version : List Char) (q : Query)
    (options : Table String) (p : Package) : Prop where
  name_text : Percent.decode? t.name = some name
  version_text : Percent.decode? t.version = some version
  name_ne : name ≠ []
  version_ne : version ≠ []
  owned : t.ecosystem = .github → isOwnerRepo name = true
  query : t.pairs.foldlM (Query.add (String.ofList version)) ⟨[], none, none⟩ = some q
  subpath : addSubpath q.options t.fragment = some options
  package : p = assemble id t.ecosystem (String.ofList name) (String.ofList version) q options

theorem Parts.read?_eq_some_iff {t : Parts} {id : String} {p : Package} :
    t.read? id = some p ↔ ∃ name version q options, t.Reads id name version q options p := by
  have refused {name version : List Char} :
      (name.isEmpty = true ∨ version.isEmpty = true ∨
          (t.ecosystem = .github ∧ (!isOwnerRepo name) = true)) ↔
        ¬ (name ≠ [] ∧ version ≠ [] ∧ (t.ecosystem = .github → isOwnerRepo name = true)) := by
    simp only [List.isEmpty_iff, Bool.not_eq_true', ne_eq]
    grind
  simp only [read?, bind, Option.bind_eq_some_iff, refused]
  constructor
  · rintro ⟨name, hname, version, hversion, h⟩
    split at h
    · cases h
    · next fine =>
      simp only [Option.bind_eq_some_iff] at h
      obtain ⟨q, hq, options, hoptions, made⟩ := h
      obtain ⟨name_ne, version_ne, owned⟩ := Classical.not_not.mp fine
      exact ⟨name, version, q, options, hname, hversion, name_ne, version_ne, owned, hq, hoptions,
        (Option.some.inj made).symm⟩
  · rintro ⟨name, version, q, options, read⟩
    refine ⟨name, read.name_text, version, read.version_text, ?_⟩
    rw [if_neg (Classical.not_not.mpr ⟨read.name_ne, read.version_ne, read.owned⟩)]
    simp only [Option.bind_eq_some_iff]
    exact ⟨q, read.query, options, read.subpath, congrArg some read.package.symm⟩

/-! What is read is well formed. -/

/-- The pair gives a repository. -/
def IsRepository (pair : String × String) : Prop := pair.1 = "repository_url"

instance (pair : String × String) : Decidable (IsRepository pair) :=
  inferInstanceAs (Decidable (_ = _))

/-- The pair gives a pin. -/
def IsPin (pair : String × String) : Prop := (pair.1 = "rev" ∨ pair.1 = "tag") ∧ pair.2 = "true"

instance (pair : String × String) : Decidable (IsPin pair) := inferInstanceAs (Decidable (_ ∧ _))

/-- The pair is an option: neither a repository nor a pin. -/
def IsOption (pair : String × String) : Prop := ¬ IsRepository pair ∧ ¬ IsPin pair

instance (pair : String × String) : Decidable (IsOption pair) := inferInstanceAs (Decidable (_ ∧ _))

/-- No pair ends within the key. -/
def IsKey (key : String) : Prop := '&' ∉ key.toList ∧ '=' ∉ key.toList

/-- Options that a query can give. -/
structure Listed (options : Table String) : Prop where
  sorted : Table.Sorted options
  keys : ∀ pair ∈ options, IsKey pair.1
  plain : ∀ pair ∈ options, IsOption pair

theorem Listed.empty : Listed [] := ⟨List.Pairwise.nil, by simp, by simp⟩

theorem Listed.insert {options : Table String} (h : Listed options) {key value : String}
    (isKey : IsKey key) (plain : IsOption (key, value)) : Listed (options.insert key value) := by
  refine ⟨h.sorted.insert key value, fun pair there => ?_, fun pair there => ?_⟩
  · rcases Table.mem_insert there with rfl | old
    · exact isKey
    · exact h.keys pair old
  · rcases Table.mem_insert there with rfl | old
    · exact plain
    · exact h.plain pair old

/-- A query whose pin, if it has one, is at the version. -/
structure Query.Sound (version : String) (q : Query) : Prop where
  listed : Listed q.options
  pinned : ∀ pin ∈ q.pin, pin.value = version

theorem Query.Sound.enter {version key value : String} {q q' : Query} (h : q.Sound version)
    (isKey : IsKey key) (entered : q.enter version key value = some q') : q'.Sound version := by
  unfold Query.enter at entered
  split at entered
  · cases entered
    exact ⟨h.listed, h.pinned⟩
  · next named =>
    split at entered
    · split at entered
      · cases entered
      · cases entered
        refine ⟨h.listed, fun pin there => ?_⟩
        obtain rfl := Option.some.inj there
        split <;> rfl
    · next pinned =>
      cases entered
      exact ⟨h.listed.insert isKey ⟨named, pinned⟩, h.pinned⟩

theorem isKey_of_cut {pair : List Char} (h : '&' ∉ pair) :
    IsKey (String.ofList ((Text.cut? '=' pair).getD (pair, [])).1) := by
  unfold IsKey
  rw [String.toList_ofList]
  cases cut : Text.cut? '=' pair with
  | none => exact ⟨h, Text.cut?_eq_none_iff.mp cut⟩
  | some parts =>
    obtain ⟨key, value⟩ := parts
    rw [Text.cut?_eq cut] at h
    simp only [List.mem_append, not_or] at h
    exact ⟨h.1, Text.not_mem_of_cut? cut⟩

theorem Query.Sound.add {version : String} {pair : List Char} {q q' : Query} (h : q.Sound version)
    (apart : '&' ∉ pair) (added : q.add version pair = some q') : q'.Sound version := by
  rw [Query.add_eq, Option.bind_eq_some_iff] at added
  obtain ⟨value, -, entered⟩ := added
  exact h.enter (isKey_of_cut apart) entered

theorem Query.Sound.addAll {version : String} {pairs : List (List Char)} {q q' : Query}
    (h : q.Sound version) (apart : ∀ pair ∈ pairs, '&' ∉ pair)
    (added : pairs.foldlM (Query.add version) q = some q') : q'.Sound version := by
  induction pairs generalizing q with
  | nil =>
    cases added
    exact h
  | cons pair pairs ih =>
    rw [List.foldlM_cons, Option.bind_eq_bind, Option.bind_eq_some_iff] at added
    obtain ⟨next, first, rest⟩ := added
    exact ih (h.add (apart pair List.mem_cons_self) first)
      (fun other there => apart other (List.mem_cons_of_mem _ there)) rest

/-- What holds of every package that was read from an identifier. -/
structure WellFormed (p : Package) : Prop where
  name_ne : p.name ≠ ""
  version_ne : p.version ≠ ""
  owned : p.ecosystem = .github → isOwnerRepo p.name.toList = true
  listed : Listed p.options
  pinned : ∀ pin ∈ p.pin, pin.value = p.version
  /-- a repository is never without a pin -/
  fixed : p.pin = none → p.repository = none

theorem Parts.pairs_apart {id : List Char} {t : Parts} (h : Parts.ofId? id = some t) :
    ∀ pair ∈ t.pairs, '&' ∉ pair := by
  simp only [Parts.ofId?, bind, Option.bind_eq_some_iff] at h
  obtain ⟨_, -, ⟨_, path⟩, -, e, -, parts⟩ := h
  cases parts
  intro pair there
  exact Text.not_mem_of_mem_fields (List.mem_filter.mp there).1

theorem Listed.addSubpath {options all : Table String} (h : Listed options)
    {fragment : Option (List Char)} (added : addSubpath options fragment = some all) :
    Listed all := by
  cases fragment with
  | none =>
    cases added
    exact h
  | some text =>
    obtain ⟨s, -, rfl⟩ := Option.map_eq_some_iff.mp added
    exact h.insert ⟨by decide, by decide⟩ (by simp [IsOption, IsRepository, IsPin])

theorem wellFormed_of_ofId? {id : String} {p : Package} (h : ofId? id = some p) : p.WellFormed := by
  rw [ofId?_eq, Option.bind_eq_some_iff] at h
  obtain ⟨t, cut, made⟩ := h
  obtain ⟨name, version, q, options, read⟩ := Parts.read?_eq_some_iff.mp made
  have start : Query.Sound (String.ofList version) ⟨[], none, none⟩ := ⟨.empty, by simp⟩
  have sound := start.addAll (Parts.pairs_apart cut) read.query
  have filled {cs : List Char} (h : cs ≠ []) : String.ofList cs ≠ "" := by simpa using h
  rw [read.package]
  refine ⟨filled read.name_ne, filled read.version_ne, ?_, sound.listed.addSubpath read.subpath,
    ?_, ?_⟩
  · simpa [assemble] using read.owned
  · intro pin there
    simp only [assemble] at there ⊢
    split at there
    · next found =>
      cases there
      exact sound.pinned pin found
    · obtain ⟨_, -, rfl⟩ := Option.map_eq_some_iff.mp there
      unfold Pin.infer
      split <;> rfl
  · intro unpinned
    simp only [assemble] at unpinned ⊢
    split at unpinned
    · cases unpinned
    · exact Option.map_eq_none_iff.mp unpinned

end Package

end LanguageHost
