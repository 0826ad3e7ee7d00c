import LanguageHost.Proofs.Package.Reading

/-! How an identifier is spelled. Behind the scheme stand a name, a version, a query and, in that of a module,
a fragment with another query behind it; each part is free of what would end it. Every text is the spelling
of such parts, and reading finds just these. -/
namespace LanguageHost

namespace Text

/-- A separator with what stands behind it, if anything does. -/
def behind (sep : Char) : Option (List Char) → List Char
  | none => []
  | some back => sep :: back

theorem cut?_behind {sep : Char} {front : List Char} (h : sep ∉ front) (back : Option (List Char)) :
    cut? sep (front ++ behind sep back) = back.map fun back => (front, back) := by
  cases back with
  | none => rw [behind, List.append_nil, cut?_eq_none_iff.mpr h, Option.map_none]
  | some back => rw [behind, cut?_append h, Option.map_some]

theorem exists_behind (sep : Char) (cs : List Char) :
    ∃ front back, sep ∉ front ∧ cs = front ++ behind sep back := by
  cases cut : cut? sep cs with
  | none => exact ⟨cs, none, cut?_eq_none_iff.mp cut, (List.append_nil cs).symm⟩
  | some parts =>
      obtain ⟨front, back⟩ := parts
      exact ⟨front, some back, not_mem_of_cut? cut, cut?_eq cut⟩

theorem afterStart?_eq {start cs rest : List Char} (h : afterStart? start cs = some rest) :
    cs = start ++ rest := by
  induction start generalizing cs with
  | nil =>
      cases h
      rfl
  | cons p start ih =>
      cases cs with
      | nil => cases h
      | cons c cs =>
          rw [afterStart?] at h
          split at h
          · next same => rw [← same, ih h, List.cons_append]
          · cases h

end Text

namespace Ecosystem

theorem eq_scheme_of_ofScheme? {s : String} {e : Ecosystem} (h : ofScheme? s = some e) :
    s = e.scheme := by
  have found := List.find?_some h
  exact (beq_iff_eq.mp found).symm

end Ecosystem

namespace Package
open Text (behind)

/-- A query pair: a key, and behind a `=` its value. -/
structure Field where
  key : List Char
  value : Option (List Char)
deriving DecidableEq

namespace Field
variable {f : Field}

def text (f : Field) : List Char := f.key ++ behind '=' f.value

/-- The value as it is written; one that is missing is empty. -/
def raw (f : Field) : List Char := f.value.getD []

structure Proper (f : Field) : Prop where
  key : '=' ∉ f.key
  whole : '&' ∉ f.text

instance (f : Field) : Decidable f.Proper :=
  decidable_of_iff ('=' ∉ f.key ∧ '&' ∉ f.text) ⟨fun h => ⟨h.1, h.2⟩, fun h => ⟨h.key, h.whole⟩⟩

theorem Proper.cut (h : f.Proper) : (Text.cut? '=' f.text).getD (f.text, []) = (f.key, f.raw) := by
  rw [text, Text.cut?_behind h.key]
  cases value : f.value with
  | none => simp [raw, value, behind]
  | some v => simp [raw, value]

/-- The field is not empty, as one between two `&` is. -/
def IsPair (f : Field) : Prop := f.text ≠ []

instance (f : Field) : Decidable f.IsPair := inferInstanceAs (Decidable (_ ≠ _))

theorem exists_texts (texts : List (List Char)) (apart : ∀ text ∈ texts, '&' ∉ text) :
    ∃ fields : List Field, (∀ f ∈ fields, f.Proper) ∧ fields.map Field.text = texts := by
  induction texts with
  | nil => exact ⟨[], by simp, rfl⟩
  | cons text texts ih =>
      obtain ⟨fields, proper, rfl⟩ := ih fun other there => apart other (List.mem_cons_of_mem _ there)
      obtain ⟨key, value, keyed, rfl⟩ := Text.exists_behind '=' text
      refine ⟨⟨key, value⟩ :: fields, ?_, rfl⟩
      intro f there
      rcases List.mem_cons.mp there with rfl | there
      · exact ⟨keyed, apart _ List.mem_cons_self⟩
      · exact proper f there

end Field

/-- The fields of a query, with `&` between them. -/
def joined (fields : List Field) : List Char := ['&'].intercalate (fields.map Field.text)

theorem exists_joined (query : List Char) :
    ∃ fields : List Field, (∀ f ∈ fields, f.Proper) ∧ query = joined fields := by
  obtain ⟨fields, proper, texts⟩ := Field.exists_texts (Text.fields '&' query) fun _ there =>
    Text.not_mem_of_mem_fields there
  refine ⟨fields, proper, ?_⟩
  rw [joined, texts, Text.intercalate_fields]

theorem queryPairs_joined {fields : List Field} (proper : ∀ f ∈ fields, f.Proper) :
    queryPairs (joined fields) = (fields.filter (·.IsPair)).map Field.text := by
  cases fields with
  | nil => rfl
  | cons first rest =>
      have apart : ∀ text ∈ (first :: rest).map Field.text, '&' ∉ text := by
        intro text there
        obtain ⟨f, inside, rfl⟩ := List.mem_map.mp there
        exact (proper f inside).whole
      rw [queryPairs, joined, Text.fields_intercalate apart (by simp), List.filter_map]
      congr 1
      refine List.filter_congr fun f _ => ?_
      cases empty : f.text <;> simp [Field.IsPair, empty]

theorem queryPairs_append (front back : List Char) :
    queryPairs (front ++ '&' :: back) = queryPairs front ++ queryPairs back := by
  rw [queryPairs, Text.fields_append, List.filter_append]
  rfl

/-- The version as it is written; one that is missing or empty is the latest. -/
def versionText : Option (List Char) → List Char
  | none | some [] => latest.toList
  | some version => version

theorem versionText_ne_nil (version : Option (List Char)) : versionText version ≠ [] := by
  cases version with
  | none => decide
  | some version =>
      cases version with
      | nil => decide
      | cons c version => exact List.cons_ne_nil c version

/-- An `@` in front belongs to the name. -/
theorem cutVersion_behind {name : List Char} {version : Option (List Char)} (apart : '@' ∉ name.tail)
    (named : version.isSome → name ≠ []) :
    cutVersion (name ++ behind '@' version) = (name, versionText version) := by
  have given (v : List Char) : (if v.isEmpty then latest.toList else v) = versionText (some v) := by
    cases v <;> rfl
  cases name with
  | nil =>
      cases version with
      | none => rfl
      | some v => exact absurd rfl (named rfl)
  | cons c name =>
      rw [List.tail_cons] at apart
      by_cases leads : c = '@'
      · subst leads
        unfold cutVersion
        simp only [List.cons_append, Text.cut?_behind apart]
        cases version with
        | none => simp [behind, versionText]
        | some v => simp only [Option.map_some, given]
      · have whole : '@' ∉ c :: name := by simp [Ne.symm leads, apart]
        unfold cutVersion
        split
        · next h => exact absurd (List.cons.inj h).1 leads
        · rw [Text.cut?_behind whole]
          cases version with
          | none => simp [behind, versionText]
          | some v => simp only [Option.map_some, given]

theorem exists_version (body : List Char) : ∃ name version, '@' ∉ name.tail ∧
    (version.isSome → name ≠ []) ∧ body = name ++ behind '@' version := by
  cases body with
  | nil => exact ⟨[], none, by simp, nofun, rfl⟩
  | cons c rest =>
      obtain ⟨name, version, apart, rfl⟩ := Text.exists_behind '@' rest
      exact ⟨c :: name, version, apart, fun _ => List.cons_ne_nil c name, rfl⟩

/-- What an identifier is made of behind `pkg:`. -/
structure Spelling where
  ecosystem : Ecosystem
  name : List Char
  version : Option (List Char)
  query : Option (List Field)
  fragment : Option (List Char)
  /-- the query behind the fragment -/
  trailing : Option (List Field)

namespace Spelling
variable {s : Spelling}

/-- The name and the version. -/
def body (s : Spelling) : List Char := s.name ++ behind '@' s.version

/-- What stands before the fragment. -/
def front (s : Spelling) : List Char := s.body ++ behind '?' (s.query.map joined)

def path (s : Spelling) : List Char :=
  s.front ++ behind '#' (s.fragment.map fun f => f ++ behind '?' (s.trailing.map joined))

def text (s : Spelling) : List Char :=
  "pkg:".toList ++ (s.ecosystem.scheme.toList ++ '/' :: s.path)

/-- The fields of both queries. -/
def fields (s : Spelling) : List Field := s.query.getD [] ++ s.trailing.getD []

def rawVersion (s : Spelling) : List Char := versionText s.version

/-- No part holds what would end it. An `@` in front belongs to the name. -/
structure Proper (s : Spelling) : Prop where
  name : '@' ∉ s.name.tail ∧ (s.version.isSome → s.name ≠ [])
  body : '?' ∉ s.body
  fields : ∀ f ∈ s.fields, f.Proper
  fragment : ∀ f ∈ s.fragment, s.ecosystem = .golang ∧ '?' ∉ f
  trailing : s.trailing.isSome → s.fragment.isSome
  golang : s.ecosystem = .golang → '#' ∉ s.front

/-- The fragment, if there is anything in it. -/
def subpath (s : Spelling) : Option (List Char) := s.fragment.filter fun f => !f.isEmpty

/-- The text of both queries. -/
def queries (s : Spelling) : Option (List Char) :=
  match s.query, s.trailing with
  | some query, some trailing => some (joined query ++ '&' :: joined trailing)
  | some query, none => some (joined query)
  | none, trailing => trailing.map joined

/-- What is read of an identifier. -/
def parts (s : Spelling) : Parts :=
  ⟨s.ecosystem, s.name, s.rawVersion, (s.fields.filter (·.IsPair)).map Field.text, s.subpath⟩

theorem Proper.cutVersion_body (h : s.Proper) : cutVersion s.body = (s.name, s.rawVersion) :=
  cutVersion_behind h.name.1 h.name.2

theorem Proper.queryPairs_queries (h : s.Proper) :
    queryPairs (s.queries.getD []) = (s.fields.filter (·.IsPair)).map Field.text := by
  have proper := h.fields
  unfold Spelling.fields at proper ⊢
  unfold queries
  cases query : s.query with
  | none =>
      rw [query] at proper
      cases trailing : s.trailing with
      | none => rfl
      | some behind =>
          rw [trailing] at proper
          exact queryPairs_joined proper
  | some before =>
      rw [query] at proper
      cases trailing : s.trailing with
      | none =>
          rw [trailing] at proper
          simpa using queryPairs_joined proper
      | some behind =>
          rw [trailing] at proper
          have first : ∀ f ∈ before, f.Proper := fun f there => proper f (List.mem_append_left _ there)
          have second : ∀ f ∈ behind, f.Proper := fun f there => proper f (List.mem_append_right _ there)
          simp only [Option.getD_some, queryPairs_append, queryPairs_joined first,
            queryPairs_joined second, List.filter_append, List.map_append]

theorem front_of_trailing (alone : s.trailing = none) : s.front = s.body ++ behind '?' s.queries := by
  rw [front, queries, alone]
  cases s.query <;> rfl

/-- A query behind the fragment joins the one before it. -/
theorem Proper.joins_front (h : s.Proper) {rest : List Field} (more : s.trailing = some rest) :
    (if '?' ∈ s.front then s.front ++ '&' :: joined rest else s.front ++ '?' :: joined rest) =
      s.body ++ behind '?' s.queries := by
  have plain := h.body
  rw [front, queries, more]
  cases s.query with
  | none =>
      rw [Option.map_none, behind, List.append_nil, if_neg plain]
      rfl
  | some query =>
      rw [Option.map_some, behind, if_pos (by simp), List.append_assoc]
      rfl

theorem Proper.trailing_of_fragment (h : s.Proper) (none : s.fragment = none) : s.trailing = .none := by
  have both := h.trailing
  rw [none] at both
  simpa using both

/-- What is left without the fragment is the body with both queries behind it. -/
theorem Proper.cut_fragment (h : s.Proper) (golang : s.ecosystem = .golang) :
    cutFragment s.path = (s.body ++ behind '?' s.queries, s.subpath) := by
  have clear := h.golang golang
  unfold cutFragment path
  rw [Text.cut?_behind clear]
  cases fragment : s.fragment with
  | none =>
      have front := front_of_trailing (h.trailing_of_fragment fragment)
      simp only [Option.map_none, behind, List.append_nil, subpath, fragment, Option.filter_none, front]
  | some f =>
      have apart := (h.fragment f fragment).2
      have kept : (if f.isEmpty then none else some f) = s.subpath := by
        rw [subpath, fragment]
        cases f <;> rfl
      simp only [Option.map_some, Text.cut?_behind apart]
      cases trailing : s.trailing with
      | none =>
          simp only [Option.map_none, behind, List.append_nil, kept]
          exact congrArg (·, _) (front_of_trailing trailing)
      | some rest =>
          simp only [Option.map_some, kept]
          exact congrArg (·, _) (h.joins_front trailing)

/-- The parts of a spelling are found in its path. -/
theorem Proper.ofPath (h : s.Proper) : Parts.ofPath s.ecosystem s.path = s.parts := by
  have path : (if s.ecosystem = .golang then cutFragment s.path else (s.path, none)) =
      (s.body ++ behind '?' s.queries, s.subpath) := by
    split
    · next golang => exact h.cut_fragment golang
    · next other =>
        have fragment : s.fragment = none :=
          Option.eq_none_iff_forall_not_mem.mpr fun f there => other (h.fragment f there).1
        have front := front_of_trailing (h.trailing_of_fragment fragment)
        simp only [Spelling.path, fragment, Option.map_none, behind, List.append_nil, front, subpath,
          Option.filter_none]
  have query : (Text.cut? '?' (s.body ++ behind '?' s.queries)).getD (s.body ++ behind '?' s.queries, []) =
      (s.body, s.queries.getD []) := by
    rw [Text.cut?_behind h.body]
    cases s.queries <;> simp [behind]
  simp only [Parts.ofPath, path, query, h.cutVersion_body, h.queryPairs_queries]
  rfl

theorem exists_query (query : Option (List Char)) : ∃ fields : Option (List Field),
    (∀ f ∈ fields.getD [], f.Proper) ∧ query = fields.map joined := by
  cases query with
  | none => exact ⟨none, by simp, rfl⟩
  | some query =>
      obtain ⟨fields, proper, rfl⟩ := exists_joined query
      exact ⟨some fields, proper, rfl⟩

/-- Every path is one of a spelling. -/
theorem exists_path (e : Ecosystem) (path : List Char) :
    ∃ s : Spelling, s.Proper ∧ s.ecosystem = e ∧ s.path = path := by
  by_cases golang : e = .golang
  · obtain ⟨front, rest, clear, rfl⟩ := Text.exists_behind '#' path
    obtain ⟨body, query, plain, rfl⟩ := Text.exists_behind '?' front
    obtain ⟨name, version, apart, named, rfl⟩ := exists_version body
    obtain ⟨fields, proper, rfl⟩ := exists_query query
    cases rest with
    | none =>
        refine ⟨⟨e, name, version, fields, none, none⟩,
          ⟨⟨apart, named⟩, plain, ?_, by simp, by simp, ?_⟩, rfl, rfl⟩
        · simpa [Spelling.fields] using proper
        · exact fun _ => clear
    | some tail =>
        obtain ⟨fragment, trailing, ended, rfl⟩ := Text.exists_behind '?' tail
        obtain ⟨more, proper', rfl⟩ := exists_query trailing
        refine ⟨⟨e, name, version, fields, some fragment, more⟩,
          ⟨⟨apart, named⟩, plain, ?_, ?_, by simp, ?_⟩, rfl, rfl⟩
        · intro f there
          rcases List.mem_append.mp there with before | after
          · exact proper f before
          · exact proper' f after
        · rintro f ⟨⟩
          exact ⟨golang, ended⟩
        · exact fun _ => clear
  · obtain ⟨body, query, plain, rfl⟩ := Text.exists_behind '?' path
    obtain ⟨name, version, apart, named, rfl⟩ := exists_version body
    obtain ⟨fields, proper, rfl⟩ := exists_query query
    refine ⟨⟨e, name, version, fields, none, none⟩,
      ⟨⟨apart, named⟩, plain, ?_, by simp, by simp, ?_⟩, rfl, ?_⟩
    · simpa [Spelling.fields] using proper
    · exact fun same => absurd same golang
    · simp [path, Spelling.front, Spelling.body, behind]

/-- An identifier has the parts that it is spelled with. -/
theorem Proper.ofId? (h : s.Proper) {id : List Char} (written : Text.trimmed id = s.text) :
    Parts.ofId? id = some s.parts := by
  unfold Parts.ofId?
  rw [written, text, Text.afterStart?_append]
  simp only [bind, Option.bind_some, Text.cut?_append s.ecosystem.slash_not_mem_scheme, String.ofList_toList,
    Ecosystem.ofScheme?_scheme, h.ofPath]

theorem exists_of_ofId? {id : List Char} {t : Parts} (cut : Parts.ofId? id = some t) :
    ∃ s : Spelling, s.Proper ∧ Text.trimmed id = s.text := by
  simp only [Parts.ofId?, bind, Option.bind_eq_some_iff] at cut
  obtain ⟨rest, start, ⟨scheme, path⟩, slash, e, known, -⟩ := cut
  obtain ⟨s, proper, rfl, rfl⟩ := exists_path e path
  refine ⟨s, proper, ?_⟩
  have named : scheme = s.ecosystem.scheme.toList := by
    rw [← Ecosystem.eq_scheme_of_ofScheme? known, String.toList_ofList]
  rw [Text.afterStart?_eq start, Text.cut?_eq slash, named]
  rfl

end Spelling

end Package

end LanguageHost
