import LanguageHost.Proofs.Package.Query

/-! The grammar of identifiers: which spellings are read, and what of them a package tells. -/
namespace LanguageHost

/-- Forty hexadecimal digits. -/
def Pin.IsCommit (version : String) : Prop :=
  version.length = 40 ∧ ∀ c ∈ version.toList, Text.isHexDigit c = true

theorem Pin.isCommitHash_iff {version : String} : isCommitHash version = true ↔ IsCommit version := by
  simp [isCommitHash, IsCommit]

namespace Package
open Json (exists_of_mapM exists_mapM exists_mem_mapM)

/-- An owner and a repository, with the one slash between them. -/
def IsOwned (name : List Char) : Prop :=
  ∃ owner repo, name = owner ++ '/' :: repo ∧ owner ≠ [] ∧ repo ≠ [] ∧ '/' ∉ owner ∧ '/' ∉ repo

theorem isOwnerRepo_iff {name : List Char} : isOwnerRepo name = true ↔ IsOwned name := by
  unfold isOwnerRepo
  constructor
  · intro owned
    split at owned
    · next owner repo cut =>
        simp only [Bool.and_eq_true, Bool.not_eq_true', List.isEmpty_eq_false_iff,
          List.contains_eq_mem, decide_eq_false_iff_not] at owned
        exact ⟨owner, repo, Text.cut?_eq cut, owned.1.1, owned.1.2, Text.not_mem_of_cut? cut, owned.2⟩
    · cases owned
  · rintro ⟨owner, repo, rfl, owner_ne, repo_ne, single, last⟩
    simp only [Text.cut?_append single]
    simp [owner_ne, repo_ne, last]

/-- The parts of a spelling can be decoded, to a name that is right for the ecosystem, and one of its pairs at
most is a pin. -/
structure Spelling.Readable (s : Spelling) : Prop where
  name : ∃ name, Percent.decode? s.name = some name ∧ name ≠ [] ∧ (s.ecosystem = .github → IsOwned name)
  version : ∃ version, Percent.decode? s.rawVersion = some version
  pairs : ∀ f ∈ s.fields, f.IsPair → ∃ value, Percent.decode? f.raw = some value
  fragment : ∀ f ∈ s.fragment, f ≠ [] → ∃ text, Percent.decode? f = some text
  pins : (s.fields.filter (·.IsPin)).length ≤ 1

/-- What a package tells of the identifier that it was read from. -/
structure Tells (p : Package) (s : Spelling) : Prop where
  ecosystem : p.ecosystem = s.ecosystem
  name : Percent.decode? s.name = some p.name.toList
  version : Percent.decode? s.rawVersion = some p.version.toList
  name_ne : p.name ≠ ""
  version_ne : p.version ≠ ""
  /-- no option is a repository or a pin -/
  options : ∀ pair ∈ p.options, IsOption pair
  repository : p.repository.isSome ↔ p.ecosystem = .github ∨ ∃ f ∈ s.fields, f.IsRepository
  pinned : p.pin.isSome ↔ (∃ f ∈ s.fields, f.IsPin) ∨ p.repository.isSome
  pin : ∀ pin ∈ p.pin, pin.value = p.version
  given : ∀ f ∈ s.fields, f.IsPin →
    p.pin = some (if f.key = "rev".toList then .revision p.version else .tag p.version)
  inferred : (∀ f ∈ s.fields, ¬ f.IsPin) → ∀ pin ∈ p.pin,
    (Pin.IsCommit p.version → pin = .revision p.version) ∧ (¬ Pin.IsCommit p.version → pin = .tag p.version)

section assemble
variable (id : String) (e : Ecosystem) (name version : String) (q : Query) (options : Table String)

theorem isSome_assemble_repository : (assemble id e name version q options).repository.isSome ↔
    e = .github ∨ q.repository.isSome := by
  unfold assemble
  cases q.repository <;> simp

theorem assemble_pin : (assemble id e name version q options).pin =
    q.pin.or ((assemble id e name version q options).repository.map fun _ => Pin.infer version) := by
  unfold assemble
  cases q.pin <;> rfl

end assemble

namespace Spelling
variable {s : Spelling} {p : Package} {id : String}

/-- The fields that are not empty. -/
def pairs (s : Spelling) : List Field := s.fields.filter (·.IsPair)

theorem Proper.ofId?_eq (h : s.Proper) (written : Text.trimmed id.toList = s.text) :
    Package.ofId? id = s.parts.read? id := by
  rw [Package.ofId?_eq, h.ofId? written, Option.bind_some]

theorem mem_pairs {f : Field} : f ∈ s.pairs ↔ f ∈ s.fields ∧ f.IsPair := by
  simp [pairs]

theorem Proper.pairs (h : s.Proper) : ∀ f ∈ s.pairs, f.Proper :=
  fun f there => h.fields f (mem_pairs.mp there).1

theorem pins_pairs (s : Spelling) : s.pairs.filter (·.IsPin) = s.fields.filter (·.IsPin) := by
  unfold pairs
  rw [List.filter_filter]
  refine List.filter_congr fun f _ => ?_
  by_cases pin : f.IsPin
  · simp [pin, pin.isPair]
  · simp [pin]

theorem subpath_eq_some_iff {text : List Char} :
    s.subpath = some text ↔ s.fragment = some text ∧ text ≠ [] := by
  simp [subpath, Option.filter_eq_some_iff]

section reads
variable {name version : List Char} {q : Query} {options : Table String}

/-- The pairs are decoded, and say the query together. -/
theorem exists_said (proper : s.Proper) (reads : s.parts.Reads id name version q options p) :
    ∃ said, s.pairs.mapM Field.said? = some said ∧
      Query.ofPairs? (String.ofList version) said = some q := by
  have query := reads.query
  change (s.pairs.map Field.text).foldlM _ _ = _ at query
  rw [Query.addAll_eq proper.pairs] at query
  exact Option.bind_eq_some_iff.mp query

theorem readable_of_reads (proper : s.Proper) (reads : s.parts.Reads id name version q options p) :
    s.Readable := by
  obtain ⟨said, decoded, together⟩ := exists_said proper reads
  constructor
  · exact ⟨name, reads.name_text, reads.name_ne, fun github => isOwnerRepo_iff.mp (reads.owned github)⟩
  · exact ⟨version, reads.version_text⟩
  · intro f there pair
    obtain ⟨_, -, one⟩ := exists_mem_mapM decoded (mem_pairs.mpr ⟨there, pair⟩)
    obtain ⟨value, raw, -⟩ := Option.map_eq_some_iff.mp one
    exact ⟨value, raw⟩
  · intro f there ne
    have added := reads.subpath
    have given : s.parts.fragment = some f := subpath_eq_some_iff.mpr ⟨there, ne⟩
    rw [given] at added
    obtain ⟨text, raw, -⟩ := Option.map_eq_some_iff.mp added
    exact ⟨text, raw⟩
  · obtain ⟨single, -⟩ := Query.ofPairs?_eq_some_iff.mp together
    rwa [Field.length_pins decoded, s.pins_pairs] at single

end reads

theorem exists_of_readable (proper : s.Proper) (readable : s.Readable) (id : String) :
    ∃ p, s.parts.read? id = some p := by
  obtain ⟨name, name_text, name_ne, owned⟩ := readable.name
  obtain ⟨version, version_text⟩ := readable.version
  have version_ne := Percent.decode?_ne_nil (versionText_ne_nil s.version) version_text
  obtain ⟨said, decoded⟩ : ∃ said, s.pairs.mapM Field.said? = some said := by
    apply exists_mapM
    intro f there
    obtain ⟨field, pair⟩ := mem_pairs.mp there
    obtain ⟨value, raw⟩ := readable.pairs f field pair
    exact ⟨_, Option.map_eq_some_iff.mpr ⟨value, raw, rfl⟩⟩
  obtain ⟨q, together⟩ : ∃ q, Query.ofPairs? (String.ofList version) said = some q := by
    refine ⟨_, Query.ofPairs?_eq_some_iff.mpr ⟨?_, rfl⟩⟩
    rw [Field.length_pins decoded, s.pins_pairs]
    exact readable.pins
  obtain ⟨options, added⟩ : ∃ options, addSubpath q.options s.subpath = some options := by
    cases given : s.subpath with
    | none => exact ⟨_, rfl⟩
    | some f =>
        obtain ⟨there, ne⟩ := subpath_eq_some_iff.mp given
        obtain ⟨text, raw⟩ := readable.fragment f there ne
        exact ⟨_, Option.map_eq_some_iff.mpr ⟨text, raw, rfl⟩⟩
  refine ⟨assemble id s.ecosystem (String.ofList name) (String.ofList version) q options,
    Parts.read?_eq_some_iff.mpr ⟨name, version, q, options, ?_⟩⟩
  refine ⟨name_text, version_text, name_ne, version_ne, ?_, ?_, added, rfl⟩
  · exact fun github => isOwnerRepo_iff.mpr (owned github)
  · change (s.pairs.map Field.text).foldlM _ _ = _
    rw [Query.addAll_eq proper.pairs, decoded]
    exact together

theorem exists_field_iff {fields : List Field} {said : List (String × String)} {P : Field → Prop}
    {Q : String × String → Prop} (decoded : fields.mapM Field.said? = some said)
    (same : ∀ {f pair}, f.said? = some pair → (Q pair ↔ P f)) :
    (∃ pair ∈ said, Q pair) ↔ ∃ f ∈ fields, P f := by
  constructor
  · rintro ⟨pair, there, is⟩
    obtain ⟨f, inside, one⟩ := exists_of_mapM decoded there
    exact ⟨f, inside, (same one).mp is⟩
  · rintro ⟨f, there, is⟩
    obtain ⟨pair, inside, one⟩ := exists_mem_mapM decoded there
    exact ⟨pair, inside, (same one).mpr is⟩

theorem exists_pairs_iff {P : Field → Prop} (pair : ∀ {f}, P f → f.IsPair) :
    (∃ f ∈ s.pairs, P f) ↔ ∃ f ∈ s.fields, P f := by
  constructor
  · rintro ⟨f, there, is⟩
    exact ⟨f, (mem_pairs.mp there).1, is⟩
  · rintro ⟨f, there, is⟩
    exact ⟨f, mem_pairs.mpr ⟨there, pair is⟩, is⟩

section tells
variable {version : String} {q : Query} {said : List (String × String)}

theorem isSome_repository (decoded : s.pairs.mapM Field.said? = some said)
    (together : Query.ofPairs? version said = some q) :
    q.repository.isSome ↔ ∃ f ∈ s.fields, f.IsRepository := by
  obtain ⟨-, rfl⟩ := Query.ofPairs?_eq_some_iff.mp together
  rw [Option.isSome_map, List.getLast?_isSome, ← exists_pairs_iff Field.IsRepository.isPair,
    ← exists_field_iff decoded Field.isRepository_said]
  simp

theorem isSome_pin (decoded : s.pairs.mapM Field.said? = some said)
    (together : Query.ofPairs? version said = some q) :
    q.pin.isSome ↔ ∃ f ∈ s.fields, f.IsPin := by
  obtain ⟨-, rfl⟩ := Query.ofPairs?_eq_some_iff.mp together
  rw [Option.isSome_map, List.isSome_head?, ← exists_pairs_iff Field.IsPin.isPair,
    ← exists_field_iff decoded Field.isPin_said]
  simp

/-- The only pin is the one of the query. -/
theorem pin_of_isPin (decoded : s.pairs.mapM Field.said? = some said)
    (together : Query.ofPairs? version said = some q) {f : Field} (there : f ∈ s.fields) (pin : f.IsPin) :
    q.pin = some (if f.key = "rev".toList then .revision version else .tag version) := by
  obtain ⟨single, rfl⟩ := Query.ofPairs?_eq_some_iff.mp together
  obtain ⟨pair, inside, one⟩ := exists_mem_mapM decoded (mem_pairs.mpr ⟨there, pin.isPair⟩)
  have found : pair ∈ said.filter (IsPin ·) := by
    simpa using And.intro inside ((Field.isPin_said one).mpr pin)
  have only : said.filter (IsPin ·) = [pair] := by
    cases pins : said.filter (IsPin ·) with
    | nil => simp [pins] at found
    | cons first rest =>
        rw [pins, List.length_cons] at single
        rw [pins, List.eq_nil_of_length_eq_zero (by omega : rest.length = 0)] at found
        rw [List.mem_singleton.mp found, List.eq_nil_of_length_eq_zero (by omega : rest.length = 0)]
  obtain ⟨value, -, rfl⟩ := Option.map_eq_some_iff.mp one
  rw [only]
  simp only [List.head?_cons, Option.map_some, pinOf, Field.ofList_eq_iff]

/-- What is read is what the spelling gives. -/
theorem tells_of_reads {name version : List Char} {options : Table String} (proper : s.Proper)
    (reads : s.parts.Reads id name version q options p) (wf : p.WellFormed) : p.Tells s := by
  obtain ⟨said, decoded, together⟩ := exists_said proper reads
  have pinned := isSome_pin decoded together
  obtain rfl := reads.package
  constructor
  · rfl
  · exact reads.name_text.trans (congrArg some (String.toList_ofList).symm)
  · exact reads.version_text.trans (congrArg some (String.toList_ofList).symm)
  · exact wf.name_ne
  · exact wf.version_ne
  · exact wf.listed.plain
  · rw [isSome_assemble_repository, isSome_repository decoded together]
    rfl
  · rw [assemble_pin, Option.isSome_or, Bool.or_eq_true, pinned, Option.isSome_map]
  · exact wf.pinned
  · intro f there pin
    rw [assemble_pin, pin_of_isPin decoded together there pin]
    rfl
  · intro unpinned pin there
    have open_pin : q.pin = none := by
      cases found : q.pin with
      | none => rfl
      | some pin =>
          obtain ⟨f, inside, is⟩ := pinned.mp (by rw [found]; rfl)
          exact absurd is (unpinned f inside)
    rw [assemble_pin, open_pin, Option.none_or] at there
    obtain ⟨url, -, rfl⟩ := Option.map_eq_some_iff.mp there
    unfold Pin.infer
    rw [← Pin.isCommitHash_iff]
    constructor
    · exact fun commit => if_pos commit
    · exact fun other => if_neg other

end tells

end Spelling

/-- An identifier is read exactly if it is spelled, but for blanks around it, with one of the schemes and with
parts that can be decoded: a name that is not empty, and for a repository has an owner before its one slash,
a version, the value of each pair and the fragment; and if one of the pairs at most is a pin. A package that
is read has a name and a version, no option that would be a repository or a pin, and a pin exactly if one is
given or a repository is known, at the version in any case. A pin that is not given is of a revision exactly
if the version is forty hexadecimal digits, and of a tag otherwise. -/
theorem reads_exactly_its_grammar (id : String) :
    ((∃ p, ofId? id = some p) ↔
      ∃ s : Spelling, s.Proper ∧ Text.trimmed id.toList = s.text ∧ s.Readable) ∧
    ∀ p, ofId? id = some p → ∀ s : Spelling, s.Proper → Text.trimmed id.toList = s.text →
      s.Readable ∧ p.Tells s := by
  constructor
  · constructor
    · rintro ⟨p, read⟩
      rw [ofId?_eq, Option.bind_eq_some_iff] at read
      obtain ⟨t, cut, made⟩ := read
      obtain ⟨s, proper, written⟩ := Spelling.exists_of_ofId? cut
      obtain rfl := Option.some.inj (cut.symm.trans (proper.ofId? written))
      obtain ⟨name, version, q, options, reads⟩ := Parts.read?_eq_some_iff.mp made
      exact ⟨s, proper, written, Spelling.readable_of_reads proper reads⟩
    · rintro ⟨s, proper, written, readable⟩
      rw [proper.ofId?_eq written]
      exact Spelling.exists_of_readable proper readable id
  · intro p read s proper written
    have made := read
    rw [proper.ofId?_eq written] at made
    obtain ⟨name, version, q, options, reads⟩ := Parts.read?_eq_some_iff.mp made
    exact ⟨Spelling.readable_of_reads proper reads,
      Spelling.tells_of_reads proper reads (wellFormed_of_ofId? read)⟩

/-- A module with a pin before its fragment and an option behind it. -/
def Spelling.pinnedModule : Spelling where
  ecosystem := .golang
  name := "g.o/x/tools".toList
  version := some "v1%2B".toList
  query := some [⟨"tag".toList, some "%74rue".toList⟩]
  fragment := some "a%20b".toList
  trailing := some [⟨[], none⟩, ⟨"k".toList, none⟩]

theorem pinnedModule_is_read :
    let id := " pkg:golang/g.o/x/tools@v1%2B?tag=%74rue#a%20b?&k "
    Text.trimmed id.toList = Spelling.pinnedModule.text ∧
      ∃ p, ofId? id = some p ∧ p.Tells Spelling.pinnedModule ∧ p.pin = some (.tag p.version) := by
  intro id
  have written : Text.trimmed id.toList = Spelling.pinnedModule.text := by decide +kernel
  have proper : Spelling.pinnedModule.Proper := by
    refine ⟨by decide, by decide, by decide, ?_, by decide, by decide⟩
    rintro f ⟨⟩
    exact ⟨rfl, by decide⟩
  have readable : Spelling.pinnedModule.Readable := by
    have values : ∀ f ∈ Spelling.pinnedModule.fields, (Percent.decode? f.raw).isSome := by decide +kernel
    refine ⟨⟨"g.o/x/tools".toList, by decide +kernel, by decide, nofun⟩,
      ⟨"v1+".toList, by decide +kernel⟩, fun f there _ => Option.isSome_iff_exists.mp (values f there), ?_,
      by decide +kernel⟩
    rintro f ⟨⟩ -
    exact ⟨"a b".toList, by decide +kernel⟩
  obtain ⟨accepts, tells⟩ := reads_exactly_its_grammar id
  obtain ⟨p, read⟩ := accepts.mpr ⟨_, proper, written, readable⟩
  obtain ⟨-, told⟩ := tells p read _ proper written
  have pin := told.given ⟨"tag".toList, some "%74rue".toList⟩ (by decide) (by decide +kernel)
  exact ⟨written, p, read, told, pin⟩

end Package

end LanguageHost
