import LanguageHost.Cli.Commands
import LanguageHost.Proofs.Package.Canonical
import Mathlib.Data.List.Find

/-! What the canonical form tells apart. Behind the name everything is escaped, so the text falls into its
parts in one way only; a name is written as it is, and one that goes on behind an `@` of its own can pass
for another at a version. For repositories that are the package itself the form leaves out the repository
and the pin, the ones that were given explicitly as well, and a registry entry is found by that form. -/
namespace LanguageHost.Package

/-- Where one text ends at a character that the other does not hold, both end. -/
theorem append_inj_of_stop {stop : Char → Prop} {front front' back back' : List Char}
    (free : ∀ c ∈ front, ¬ stop c) (free' : ∀ c ∈ front', ¬ stop c)
    (stops : ∀ c ∈ back.head?, stop c) (stops' : ∀ c ∈ back'.head?, stop c)
    (h : front ++ back = front' ++ back') : front = front' ∧ back = back' := by
  rcases List.append_eq_append_iff.mp h with ⟨more, rfl, rfl⟩ | ⟨more, rfl, rfl⟩
  · cases more with
    | nil => simp
    | cons c more => exact absurd (stops c rfl) (free' c (by simp))
  · cases more with
    | nil => simp
    | cons c more => exact absurd (stops' c rfl) (free c (by simp))

theorem queryText_injective {pairs others : List (List Char)} (h : ∀ pair ∈ pairs, '&' ∉ pair)
    (h' : ∀ pair ∈ others, '&' ∉ pair) (same : queryText pairs = queryText others) :
    pairs = others := by
  cases pairs with
  | nil =>
    cases others with
    | nil => rfl
    | cons _ _ => cases same
  | cons pair pairs =>
    cases others with
    | nil => cases same
    | cons other others =>
      have joined : ['&'].intercalate (pair :: pairs) = ['&'].intercalate (other :: others) :=
        (List.cons.inj same).2
      rw [← Text.fields_intercalate h (List.cons_ne_nil pair pairs), joined,
        Text.fields_intercalate h' (List.cons_ne_nil other others)]

theorem fragmentText_injective {f g : Option (List Char)} (same : fragmentText f = fragmentText g) :
    f = g := by
  cases f <;> cases g <;> simp_all [fragmentText]

namespace Parts

/-- Nothing behind the name holds what begins the part after it. -/
structure Ends (t : Parts) : Prop where
  version : '#' ∉ t.version ∧ '?' ∉ t.version
  fragment : ∀ f ∈ t.fragment, '?' ∉ f
  pairs : ∀ pair ∈ t.pairs, '&' ∉ pair

/-- What stands behind the `@`. -/
def tail (t : Parts) : List Char := t.version ++ (fragmentText t.fragment ++ queryText t.pairs)

theorem text_eq (t : Parts) : t.text = t.name ++ '@' :: t.tail := by
  simp [text, tail, List.append_assoc]

theorem stops_queryText (pairs : List (List Char)) : ∀ c ∈ (queryText pairs).head?, c = '?' := by
  cases pairs <;> simp [queryText]

theorem stops_fragmentText (fragment : Option (List Char)) (pairs : List (List Char)) :
    ∀ c ∈ (fragmentText fragment ++ queryText pairs).head?, c = '#' ∨ c = '?' := by
  cases fragment with
  | none => exact fun c there => .inr (stops_queryText pairs c there)
  | some f => simp [fragmentText]

theorem Ends.fragmentText_free {t : Parts} (h : t.Ends) :
    ∀ c ∈ fragmentText t.fragment, ¬ c = '?' := by
  rintro c there rfl
  cases hf : t.fragment with
  | none => simp [hf, fragmentText] at there
  | some f =>
    rw [hf, fragmentText, List.mem_cons] at there
    exact (there.resolve_left (by decide)) |> h.fragment f hf

theorem Ends.version_free {t : Parts} (h : t.Ends) : ∀ c ∈ t.version, ¬ (c = '#' ∨ c = '?') := by
  rintro c there (rfl | rfl)
  · exact h.version.1 there
  · exact h.version.2 there

theorem Ends.tail_injective {t u : Parts} (ht : t.Ends) (hu : u.Ends) (same : t.tail = u.tail) :
    t.version = u.version ∧ t.fragment = u.fragment ∧ t.pairs = u.pairs := by
  obtain ⟨version, rest⟩ := append_inj_of_stop ht.version_free hu.version_free
    (stops_fragmentText _ _) (stops_fragmentText _ _) same
  obtain ⟨fragment, query⟩ := append_inj_of_stop ht.fragmentText_free hu.fragmentText_free
    (stops_queryText _) (stops_queryText _) rest
  exact ⟨version, fragmentText_injective fragment, queryText_injective ht.pairs hu.pairs query⟩

end Parts

/-! Names. -/

/-- The name goes on, behind an `@`, where the other ends. -/
def Extends (q p : Package) : Prop := ∃ rest, q.name.toList = p.name.toList ++ '@' :: rest

/-- Of two names in front of an `@` that make the same text, one extends the other if they differ, and what
stands behind the shorter one holds an `@` again. -/
theorem name_eq_or_extends {p q : Package} {rest rest' : List Char}
    (h : p.name.toList ++ '@' :: rest = q.name.toList ++ '@' :: rest') :
    (p.name = q.name ∧ rest = rest') ∨ (q.Extends p ∧ '@' ∈ rest) ∨ (p.Extends q ∧ '@' ∈ rest') := by
  rcases List.append_eq_append_iff.mp h with ⟨more, longer, back⟩ | ⟨more, longer, back⟩
  · cases more with
    | nil => exact .inl ⟨String.toList_inj.mp (by simpa using longer.symm), by simpa using back⟩
    | cons c more =>
      obtain ⟨rfl, rfl⟩ := List.cons.inj back
      exact .inr (.inl ⟨⟨more, longer⟩, by simp⟩)
  · cases more with
    | nil => exact .inl ⟨String.toList_inj.mp (by simpa using longer), by simpa using back.symm⟩
    | cons c more =>
      obtain ⟨rfl, rfl⟩ := List.cons.inj back
      exact .inr (.inr ⟨⟨more, longer⟩, by simp⟩)

/-! Packages that the canonical form does not tell apart. -/

/-- The packages agree in all that the canonical form shows. -/
structure Alike (p q : Package) : Prop where
  ecosystem : p.ecosystem = q.ecosystem
  name : p.name = q.name
  version : p.version = q.version
  options : p.options = q.options
  repository : p.ecosystem ≠ .github → p.repository = q.repository
  pin : p.ecosystem ≠ .github → p.pin = q.pin

theorem alike_iff {p q : Package} : p.Alike q ↔ p.ecosystem = q.ecosystem ∧ p.name = q.name ∧
    p.version = q.version ∧ p.options = q.options ∧
    (p.ecosystem ≠ .github → p.repository = q.repository) ∧
    (p.ecosystem ≠ .github → p.pin = q.pin) :=
  ⟨fun ⟨e, n, v, o, r, t⟩ => ⟨e, n, v, o, r, t⟩, fun ⟨e, n, v, o, r, t⟩ => ⟨e, n, v, o, r, t⟩⟩

instance (p q : Package) : Decidable (p.Alike q) := decidable_of_iff' _ alike_iff

variable {p q : Package}

theorem Alike.canonical_eq (h : p.Alike q) : p.canonical = q.canonical := by
  have option : p.fragment? = q.fragment? := by
    rw [fragment?, fragment?, option?, option?, h.ecosystem, h.options]
  have pairs : p.canonicalPairs = q.canonicalPairs := by
    unfold canonicalPairs
    by_cases github : p.ecosystem = .github
    · simp only [github, h.ecosystem ▸ github, option, h.options, if_true]
    · rw [option, h.options, h.repository github, h.pin github, h.ecosystem]
  rw [canonical, canonical, option, pairs, h.ecosystem, h.name, h.version]

theorem WellFormed.ends_canonicalParts (h : p.WellFormed) : p.canonicalParts.Ends := by
  refine ⟨⟨sep_not_mem_escaped (by simp) _, sep_not_mem_escaped (by simp) _⟩, ?_, ?_⟩
  · intro f there
    obtain ⟨s, -, rfl⟩ := Option.map_eq_some_iff.mp there
    exact sep_not_mem_escaped (by simp) _
  · intro text there
    obtain ⟨pair, hp, rfl⟩ := List.mem_map.mp there
    have key := (h.isKey pair hp).1
    have value : '&' ∉ Percent.encode isReserved pair.2.toList := sep_not_mem_escaped (by simp) _
    simp [pairText, key, value]

/-- The scheme is told apart from the rest by the first slash. -/
theorem ecosystem_eq_of_canonical (same : p.canonical = q.canonical) :
    p.ecosystem = q.ecosystem ∧ p.canonicalParts.text = q.canonicalParts.text := by
  have texts := congrArg String.toList same
  rw [toList_canonical, toList_canonical] at texts
  have cut := congrArg (Text.cut? '/') (List.append_cancel_left texts)
  rw [Text.cut?_append (Ecosystem.slash_not_mem_scheme _),
    Text.cut?_append (Ecosystem.slash_not_mem_scheme _), Option.some.injEq, Prod.mk.injEq] at cut
  obtain ⟨scheme, text⟩ := cut
  have known := congrArg Ecosystem.ofScheme? (String.toList_inj.mp scheme)
  rw [Ecosystem.ofScheme?_scheme, Ecosystem.ofScheme?_scheme] at known
  exact ⟨Option.some.inj known, text⟩

theorem encode_injective {s t : String}
    (same : Percent.encode isReserved s.toList = Percent.encode isReserved t.toList) : s = t := by
  have decoded := congrArg Percent.decode? same
  rw [Percent.decode?_encode (by decide), Percent.decode?_encode (by decide)] at decoded
  exact String.toList_inj.mp (Option.some.inj decoded)

/-- With one name, the canonical form gives the version, the options and what it shows of the place. -/
theorem WellFormed.alike_of_tail (hp : p.WellFormed) (hq : q.WellFormed)
    (ecosystem : p.ecosystem = q.ecosystem) (name : p.name = q.name)
    (same : p.canonicalParts.tail = q.canonicalParts.tail) : p.Alike q := by
  obtain ⟨version, fragment, pairs⟩ := hp.ends_canonicalParts.tail_injective hq.ends_canonicalParts same
  replace version : p.version = q.version := encode_injective version
  have query : p.canonicalQuery = q.canonicalQuery := by
    have read := hp.addAll_canonical
    rw [pairs, version, hq.addAll_canonical] at read
    exact (Option.some.inj read).symm
  have options : p.options = q.options := by
    have read := hp.addSubpath_canonical
    rw [query, fragment, hq.addSubpath_canonical] at read
    exact (Option.some.inj read).symm
  refine ⟨ecosystem, name, version, options, fun other => ?_, fun other => ?_⟩
  · simpa [canonicalQuery, other, ecosystem ▸ other] using congrArg Query.repository query
  · simpa [canonicalQuery, other, ecosystem ▸ other] using congrArg Query.pin query

theorem WellFormed.of_canonical_eq (hp : p.WellFormed) (hq : q.WellFormed)
    (same : p.canonical = q.canonical) :
    p.ecosystem = q.ecosystem ∧ (p.Alike q ∨ (q.Extends p ∧ '@' ∈ p.canonicalParts.tail) ∨
      (p.Extends q ∧ '@' ∈ q.canonicalParts.tail)) := by
  obtain ⟨ecosystem, texts⟩ := ecosystem_eq_of_canonical same
  rw [Parts.text_eq, Parts.text_eq] at texts
  refine ⟨ecosystem, (name_eq_or_extends texts).imp_left fun ⟨name, tail⟩ => ?_⟩
  exact hp.alike_of_tail hq ecosystem name tail

/-! Packages without an `@` of their own. -/

/-- Nothing but the first character of the name is an `@`. -/
def Plain (p : Package) : Prop :=
  '@' ∉ p.name.toList.tail ∧ '@' ∉ p.version.toList ∧ (∀ url ∈ p.repository, '@' ∉ url.toList) ∧
    ∀ pair ∈ p.options, '@' ∉ pair.1.toList ∧ '@' ∉ pair.2.toList

instance (p : Package) : Decidable p.Plain := inferInstanceAs (Decidable (_ ∧ _))

theorem at_not_mem_escaped {s : String} (h : '@' ∉ s.toList) :
    '@' ∉ Percent.encode isReserved s.toList :=
  fun there => h (Percent.mem_of_mem_encode there (by decide) (by decide))

theorem Plain.at_not_mem_pairText (h : p.Plain) {pair : String × String}
    (there : pair ∈ p.canonicalPairs) : '@' ∉ pairText pair := by
  have texts : '@' ∉ pair.1.toList ∧ '@' ∉ pair.2.toList := by
    rcases List.mem_append.mp ((canonicalPairs_perm p).mem_iff.mp there) with option | pin
    · exact h.2.2.2 pair (List.mem_filter.mp option).1
    · unfold pinning at pin
      split at pin
      · cases pin
      · rcases List.mem_append.mp pin with place | kind
        · unfold repositoryPairs at place
          split at place
          · next url given =>
            obtain rfl := List.mem_singleton.mp place
            exact ⟨show '@' ∉ "repository_url".toList by decide, h.2.2.1 url given⟩
          · cases place
        · unfold pinPairs at kind
          split at kind
          · obtain rfl := List.mem_singleton.mp kind
            decide
          · obtain rfl := List.mem_singleton.mp kind
            decide
          · cases kind
  simp [pairText, texts.1, at_not_mem_escaped texts.2]

theorem Plain.at_not_mem_tail (h : p.Plain) : '@' ∉ p.canonicalParts.tail := by
  have version : '@' ∉ p.canonicalParts.version := at_not_mem_escaped h.2.1
  have fragment : '@' ∉ fragmentText p.canonicalParts.fragment := by
    simp only [canonicalParts]
    cases hf : p.fragment? with
    | none => simp [fragmentText]
    | some s =>
      have option : p.options.get? "subpath" = some s := by
        unfold fragment? at hf
        split at hf
        · exact hf
        · cases hf
      have listed : ("subpath", s) ∈ p.options := Table.mem_of_lookup option
      simp [fragmentText, at_not_mem_escaped (h.2.2.2 _ listed).2]
  have query : '@' ∉ queryText p.canonicalParts.pairs := by
    have apart : ∀ text ∈ p.canonicalParts.pairs, '@' ∉ text := by
      intro text there
      obtain ⟨pair, hp, rfl⟩ := List.mem_map.mp there
      exact h.at_not_mem_pairText hp
    cases hq : p.canonicalParts.pairs with
    | nil => simp [queryText]
    | cons pair pairs =>
      rw [hq] at apart
      simp [queryText, Parts.not_mem_intercalate (by decide) apart]
  simp [Parts.tail, version, fragment, query]

/-- No other name passes for that of a package without an `@` of its own. -/
theorem Plain.canonical_eq_iff (h : p.Plain) (hp : p.WellFormed) (hq : q.WellFormed) :
    p.canonical = q.canonical ↔ p.Alike q := by
  refine ⟨fun same => ?_, Alike.canonical_eq⟩
  rcases (hp.of_canonical_eq hq same).2 with alike | ⟨-, there⟩ | ⟨⟨rest, longer⟩, -⟩
  · exact alike
  · exact absurd there h.at_not_mem_tail
  · have first : q.name.toList ≠ [] := by simpa using hq.name_ne
    refine absurd ?_ h.1
    rw [longer]
    cases hc : q.name.toList with
    | nil => exact absurd hc first
    | cons c name => simp

/-! The registry. -/

/-- The packages of the registry have no `@` of their own, and those in repositories are at the place that
their names and versions give. -/
theorem available_plain : ∀ e ∈ Lookup.available, ∀ known ∈ ofId? e.source.id, known.Plain ∧
    (known.ecosystem = .github → known.repository = some ("https://github.com/" ++ known.name) ∧
      known.pin = some (Pin.infer known.version)) := by
  decide +kernel

theorem registered?_eq {id : String} (read : ofId? id = some p) :
    Cli.registered? p = Lookup.available.find? fun e =>
      (ofId? e.source.id).any fun known => decide (known.Alike p) := by
  refine List.find?_congr fun e there => ?_
  cases known : ofId? e.source.id with
  | none => rfl
  | some known =>
    have plain := (available_plain e there _ known).1
    have same := plain.canonical_eq_iff (wellFormed_of_ofId? known) (wellFormed_of_ofId? read)
    rw [Option.any_some, Option.any_some, beq_eq_decide]
    exact decide_eq_decide.mpr same

/-- Packages that agree in all but the repository and the pin of a repository have one canonical form, and
packages of one canonical form agree so far unless the name of one goes on, behind an `@`, where that of the
other ends. The registry entry that is found is the first whose package agrees so far; it is found for a
package in a repository whatever repository and pin were given, and its own are those of its name and its
version. -/
theorem canonical_identifies {i j : String} (readP : ofId? i = some p) (readQ : ofId? j = some q) :
    (p.Alike q → p.canonical = q.canonical) ∧
    (p.canonical = q.canonical →
      p.ecosystem = q.ecosystem ∧ (p.Alike q ∨ q.Extends p ∨ p.Extends q)) ∧
    (Cli.registered? p = Lookup.available.find? fun e =>
      (ofId? e.source.id).any fun known => decide (known.Alike p)) ∧
    ∀ e, Cli.registered? p = some e → ∃ known, ofId? e.source.id = some known ∧ known.Alike p ∧
      (p.ecosystem = .github → known.repository = some ("https://github.com/" ++ p.name) ∧
        known.pin = some (Pin.infer p.version)) := by
  have found := registered?_eq readP
  refine ⟨Alike.canonical_eq, fun same => ?_, found, fun e there => ?_⟩
  · obtain ⟨ecosystem, either⟩ :=
      (wellFormed_of_ofId? readP).of_canonical_eq (wellFormed_of_ofId? readQ) same
    exact ⟨ecosystem, either.imp_right (Or.imp And.left And.left)⟩
  · rw [found] at there
    have like := List.find?_some there
    obtain ⟨known, read, alike⟩ := (Option.any_eq_true _ _).mp like
    replace alike : known.Alike p := of_decide_eq_true alike
    refine ⟨known, read, alike, fun github => ?_⟩
    have place := (available_plain e (List.mem_of_find?_eq_some there) known read).2
    rw [alike.ecosystem, alike.name, alike.version] at place
    exact place github

/-- A package of somebody else's repository passes for the registry's own. -/
theorem canonical_identifies_elsewhere :
    let elsewhere := "pkg:github/artempyanykh/marksman@2023-12-09?repository_url=https://github.com/someone/else"
    ∃ p q, ofId? elsewhere = some p ∧ ofId? "pkg:github/artempyanykh/marksman@2023-12-09" = some q ∧
      p.repository ≠ q.repository ∧ p.canonical = q.canonical ∧
      (Cli.registered? p).map RegistryEntry.name = some "marksman" := by
  intro elsewhere
  let p : Package := ⟨elsewhere, .github, "artempyanykh/marksman", "2023-12-09",
    some "https://github.com/someone/else", some (.tag "2023-12-09"), []⟩
  let q : Package := ⟨"pkg:github/artempyanykh/marksman@2023-12-09", .github, "artempyanykh/marksman",
    "2023-12-09", some "https://github.com/artempyanykh/marksman", some (.tag "2023-12-09"), []⟩
  have readP : ofId? elsewhere = some p := by decide +kernel
  have readQ : ofId? "pkg:github/artempyanykh/marksman@2023-12-09" = some q := by decide +kernel
  obtain ⟨shown, -, found, -⟩ := canonical_identifies readP readQ
  refine ⟨p, q, readP, readQ, by decide, shown (by decide), ?_⟩
  rw [found]
  decide +kernel

end LanguageHost.Package
