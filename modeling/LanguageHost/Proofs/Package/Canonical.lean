import LanguageHost.Proofs.Package.Spelling
import LanguageHost.Proofs.Percent

/-! The canonical form is read back. Its parts can be told apart wherever they stand, since a name holds none
of the separators behind it, a key holds neither `&` nor `=`, and all else is escaped; and the query pairs
say the same in any order, as at most one of them is a repository and one a pin. -/
namespace LanguageHost.Package

/-! The parts of a text. -/

def fragmentText : Option (List Char) → List Char
  | none => []
  | some fragment => '#' :: fragment

def queryText : List (List Char) → List Char
  | [] => []
  | pair :: pairs => '?' :: ['&'].intercalate (pair :: pairs)

/-- The parts, written one after the other behind the scheme. -/
def Parts.text (t : Parts) : List Char :=
  t.name ++ '@' :: t.version ++ fragmentText t.fragment ++ queryText t.pairs

/-- No part holds what would end it too soon. -/
structure Parts.Apart (t : Parts) : Prop where
  name : t.name ≠ [] ∧ '?' ∉ t.name ∧ '@' ∉ t.name.tail
  version : t.version ≠ [] ∧ '?' ∉ t.version
  pairs : ∀ pair ∈ t.pairs, pair ≠ [] ∧ '&' ∉ pair
  fragment : ∀ f ∈ t.fragment, t.ecosystem = .golang ∧ f ≠ [] ∧ '?' ∉ f
  golang : t.ecosystem = .golang → '#' ∉ t.name ∧ '#' ∉ t.version ∧ ∀ pair ∈ t.pairs, '#' ∉ pair

namespace Parts
open Text (behind)

variable {t : Parts} {fields : List Field}

theorem not_mem_intercalate {sep : Char} (other : sep ≠ '&') {pairs : List (List Char)}
    (h : ∀ pair ∈ pairs, sep ∉ pair) : sep ∉ ['&'].intercalate pairs := by
  induction pairs with
  | nil => simp
  | cons pair pairs ih =>
    have later := ih fun pair there => h pair (List.mem_cons_of_mem _ there)
    cases pairs with
    | nil => simpa using h pair List.mem_cons_self
    | cons next pairs =>
      rw [List.intercalate_cons_cons]
      simp only [List.mem_append, List.mem_singleton, not_or]
      exact ⟨⟨h pair List.mem_cons_self, other⟩, later⟩

theorem Apart.body (h : t.Apart) : '?' ∉ t.name ++ '@' :: t.version := by
  simp [h.name.2.1, h.version.2]

/-- The parts as they are spelled, with the pairs at the end. -/
def spelling (t : Parts) (fields : List Field) : Spelling where
  ecosystem := t.ecosystem
  name := t.name
  version := some t.version
  query := if t.fragment.isSome || fields.isEmpty then none else some fields
  fragment := t.fragment
  trailing := if t.fragment.isNone || fields.isEmpty then none else some fields

theorem fields_spelling (t : Parts) (fields : List Field) : (t.spelling fields).fields = fields := by
  unfold spelling Spelling.fields
  cases t.fragment <;> cases fields <;> simp

section spelled
variable (texts : fields.map Field.text = t.pairs)
include texts

theorem path_spelling : (t.spelling fields).path = t.text := by
  unfold text spelling
  rw [← texts]
  cases t.fragment <;> cases fields <;>
    simp [Spelling.path, Spelling.front, Spelling.body, behind, fragmentText, queryText, joined]

theorem Apart.proper_spelling (h : t.Apart) (proper : ∀ f ∈ fields, f.Proper) :
    (t.spelling fields).Proper := by
  constructor
  · exact ⟨h.name.2.2, fun _ => h.name.1⟩
  · exact h.body
  · rw [fields_spelling]
    exact proper
  · exact fun f there => ⟨(h.fragment f there).1, (h.fragment f there).2.2⟩
  · unfold spelling
    cases t.fragment <;> simp
  · intro golang
    obtain ⟨name, version, pairs⟩ := h.golang golang
    have query : '#' ∉ joined fields := by
      rw [joined, texts]
      exact not_mem_intercalate (by decide) pairs
    unfold spelling Spelling.front Spelling.body
    split <;> simp [behind, name, version, query]

theorem Apart.parts_spelling (h : t.Apart) : (t.spelling fields).parts = t := by
  have version : versionText (some t.version) = t.version := by
    cases given : t.version with
    | nil => exact absurd given h.version.1
    | cons c version => rfl
  have all : fields.filter (·.IsPair) = fields := by
    refine List.filter_eq_self.mpr fun f there => decide_eq_true ?_
    have listed : f.text ∈ t.pairs := texts ▸ List.mem_map_of_mem there
    exact (h.pairs _ listed).1
  have fragment : t.fragment.filter (fun f => !f.isEmpty) = t.fragment := by
    cases given : t.fragment with
    | none => rfl
    | some f => simp [(h.fragment f given).2.1]
  unfold Spelling.parts
  rw [fields_spelling, all, texts]
  change Parts.mk t.ecosystem t.name (versionText (some t.version)) t.pairs (t.fragment.filter _) = t
  rw [version, fragment]

end spelled

/-- Parts that are apart are found again in their text. -/
theorem Apart.ofId?_text (h : t.Apart) {id : List Char}
    (written : Text.trimmed id = "pkg:".toList ++ (t.ecosystem.scheme.toList ++ '/' :: t.text)) :
    Parts.ofId? id = some t := by
  obtain ⟨fields, proper, texts⟩ := Field.exists_texts t.pairs fun pair there => (h.pairs pair there).2
  rw [← path_spelling texts] at written
  rw [(h.proper_spelling texts proper).ofId? written, h.parts_spelling texts]

end Parts

/-! What is escaped. -/

theorem escaped_solid {cs : List Char} {c : Char} (h : c ∈ Percent.encode isReserved cs) :
    Text.isBlank c = false := by
  obtain ⟨low, plain⟩ := Percent.mem_encode h
  cases blank : Text.isBlank c with
  | false => rfl
  | true =>
    exfalso
    simp only [Text.isBlank, Bool.or_eq_true, Bool.and_eq_true, decide_eq_true_eq, beq_iff_eq] at blank
    have space : c.toNat = 0x20 ∨ (9 ≤ c.toNat ∧ c.toNat ≤ 13) := by omega
    rcases plain with free | rfl | digit
    · rcases space with same | control
      · obtain rfl : c = ' ' := Char.toNat_inj.mp same
        exact absurd free (by decide)
      · simp only [isReserved, Percent.isControl, Bool.or_eq_false_iff, decide_eq_false_iff_not] at free
        omega
    · exact absurd space (by decide)
    · simp only [Text.isHexDigit, Text.isDigit, Bool.or_eq_true, Bool.and_eq_true, decide_eq_true_eq,
        Char.le_def, UInt32.le_iff_toNat_le] at digit
      have ascii : 48 ≤ c.toNat := by
        rcases digit with (⟨least, -⟩ | ⟨least, -⟩) | ⟨least, -⟩
        · exact least
        · exact Nat.le_trans (by decide) least
        · exact Nat.le_trans (by decide) least
      omega

theorem sep_not_mem_escaped {sep : Char} (h : sep = '&' ∨ sep = '#' ∨ sep = '?') (cs : List Char) :
    sep ∉ Percent.encode isReserved cs := by
  rcases h with rfl | rfl | rfl
  all_goals exact Percent.not_mem_encode (by decide) (by decide) (by decide) cs

/-- A query pair as the canonical form has it. -/
def pairText (pair : String × String) : List Char :=
  pair.1.toList ++ '=' :: Percent.encode isReserved pair.2.toList

theorem add_pairText (version : String) (q : Query) {pair : String × String}
    (isKey : IsKey pair.1) : q.add version (pairText pair) = q.enter version pair.1 pair.2 := by
  rw [Query.add_eq, pairText, Text.cut?_append isKey.2]
  simp only [Option.getD_some, Percent.decode?_encode (show isReserved '%' = true by decide),
    Option.bind_some, String.ofList_toList]

theorem addAll_pairText (version : String) {pairs : List (String × String)}
    (keys : ∀ pair ∈ pairs, IsKey pair.1) (q : Query) :
    (pairs.map pairText).foldlM (Query.add version) q =
      pairs.foldlM (fun q pair => q.enter version pair.1 pair.2) q := by
  induction pairs generalizing q with
  | nil => rfl
  | cons pair pairs ih =>
    rw [List.map_cons, List.foldlM_cons, List.foldlM_cons,
      add_pairText version q (keys pair List.mem_cons_self)]
    exact congrArg _ (funext (ih fun pair there => keys pair (List.mem_cons_of_mem _ there)))

/-! What the query pairs say together. -/

def pinOf (version : String) (pair : String × String) : Pin :=
  if pair.1 = "rev" then .revision version else .tag version

theorem IsPin.not_repository {pair : String × String} (h : IsPin pair) : ¬ IsRepository pair := by
  intro repository
  rcases h.1 with rev | tag
  · exact absurd (repository.symm.trans rev) (by decide)
  · exact absurd (repository.symm.trans tag) (by decide)

theorem enter_repository {version : String} {q : Query} {pair : String × String}
    (h : IsRepository pair) :
    q.enter version pair.1 pair.2 = some { q with repository := some pair.2 } :=
  if_pos h

theorem enter_pin {version : String} {q : Query} {pair : String × String} (h : IsPin pair)
    (unpinned : q.pin = none) :
    q.enter version pair.1 pair.2 = some { q with pin := some (pinOf version pair) } := by
  have named : ¬ pair.1 = "repository_url" := h.not_repository
  have pin : (pair.1 = "rev" ∨ pair.1 = "tag") ∧ pair.2 = "true" := h
  rw [Query.enter, if_neg named, if_pos pin, if_neg (by simp [unpinned])]
  rfl

theorem enter_option {version : String} {q : Query} {pair : String × String} (h : IsOption pair) :
    q.enter version pair.1 pair.2 = some { q with options := q.options.insert pair.1 pair.2 } := by
  have named : ¬ pair.1 = "repository_url" := h.1
  have pin : ¬ ((pair.1 = "rev" ∨ pair.1 = "tag") ∧ pair.2 = "true") := h.2
  rw [Query.enter, if_neg named, if_neg pin]

/-- With one pin at most, the options, the repository and the pin are found in their own pairs. -/
theorem enterAll (version : String) {pairs : List (String × String)} {q : Query}
    (single : (pairs.filter (IsPin ·)).length + q.pin.toList.length ≤ 1) :
    pairs.foldlM (fun q pair => Query.enter version q pair.1 pair.2) q =
      some ⟨q.options.insertAll (pairs.filter (IsOption ·)),
        ((pairs.filter (IsRepository ·)).getLast?.map Prod.snd).or q.repository,
        ((pairs.filter (IsPin ·)).head?.map (pinOf version)).or q.pin⟩ := by
  induction pairs generalizing q with
  | nil => rfl
  | cons pair pairs ih =>
    rw [List.foldlM_cons, Option.bind_eq_bind]
    by_cases repository : IsRepository pair
    · have other : ¬ IsPin pair := fun pin => pin.not_repository repository
      have plain : ¬ IsOption pair := fun option => option.1 repository
      rw [List.filter_cons_of_neg (by simpa using other)] at single
      rw [enter_repository repository, Option.bind_some]
      refine (ih (q := { q with repository := some pair.2 }) single).trans ?_
      rw [List.filter_cons_of_neg (by simpa using plain),
        List.filter_cons_of_pos (by simpa using repository),
        List.filter_cons_of_neg (by simpa using other), List.getLast?_cons]
      cases (pairs.filter (IsRepository ·)).getLast? <;> rfl
    · by_cases pin : IsPin pair
      · have plain : ¬ IsOption pair := fun option => option.2 pin
        rw [List.filter_cons_of_pos (by simpa using pin), List.length_cons] at single
        have unpinned : q.pin = none := Option.toList_eq_nil_iff.mp (List.eq_nil_of_length_eq_zero (by omega))
        have last : pairs.filter (IsPin ·) = [] := List.eq_nil_of_length_eq_zero (by omega)
        rw [enter_pin pin unpinned, Option.bind_some]
        refine (ih (q := { q with pin := some (pinOf version pair) }) (by simp [last])).trans ?_
        rw [List.filter_cons_of_neg (by simpa using plain),
          List.filter_cons_of_neg (by simpa using repository),
          List.filter_cons_of_pos (by simpa using pin), last]
        rfl
      · have plain : IsOption pair := ⟨repository, pin⟩
        rw [List.filter_cons_of_neg (by simpa using pin)] at single
        rw [enter_option plain, Option.bind_some]
        refine (ih (q := { q with options := q.options.insert pair.1 pair.2 }) single).trans ?_
        rw [List.filter_cons_of_pos (by simpa using plain),
          List.filter_cons_of_neg (by simpa using repository),
          List.filter_cons_of_neg (by simpa using pin)]
        rfl

/-! The canonical form. -/

def repositoryPairs (p : Package) : List (String × String) :=
  match p.repository with
  | some url => [("repository_url", url)]
  | none => []

def pinPairs (p : Package) : List (String × String) :=
  match p.pin with
  | some (.revision _) => [("rev", "true")]
  | some (.tag _) => [("tag", "true")]
  | none => []

/-- The options that stand in the query. -/
def queryOptions (p : Package) : Table String :=
  p.options.filter fun (k, _) => p.fragment?.isNone || k != "subpath"

/-- The pairs behind the options. -/
def pinning (p : Package) : List (String × String) :=
  if p.ecosystem = .github then [] else p.repositoryPairs ++ p.pinPairs

theorem canonicalPairs_perm (p : Package) :
    p.canonicalPairs.Perm (p.queryOptions ++ p.pinning) := by
  refine (List.mergeSort_perm _ _).trans (.of_eq ?_)
  unfold pinning
  split
  · rw [List.append_nil]
    rfl
  · rw [← List.append_assoc]
    rfl

/-- What the pairs of the canonical form say together. -/
def canonicalQuery (p : Package) : Query where
  options := p.queryOptions
  repository := if p.ecosystem = .github then none else p.repository
  pin := if p.ecosystem = .github then none else p.pin

def canonicalParts (p : Package) : Parts where
  ecosystem := p.ecosystem
  name := p.name.toList
  version := Percent.encode isReserved p.version.toList
  pairs := p.canonicalPairs.map pairText
  fragment := p.fragment?.map fun s => Percent.encode isReserved s.toList

theorem toList_fragment (front : List Char) (fragment : Option String) :
    front ++ (match fragment with
      | some s => "#" ++ escape s
      | none => "").toList =
      front ++ fragmentText (fragment.map fun s => Percent.encode isReserved s.toList) := by
  cases fragment <;> simp [fragmentText, escape, Percent.encodeString]

theorem toList_query (front : List Char) (pairs : List String) :
    front ++ (match pairs with
      | [] => ""
      | _ => "?" ++ String.intercalate "&" pairs).toList =
      front ++ queryText (pairs.map String.toList) := by
  cases pairs with
  | nil => rfl
  | cons pair pairs =>
    rw [String.toList_append, String.toList_intercalate]
    rfl

theorem toList_canonical (p : Package) :
    p.canonical.toList =
      "pkg:".toList ++ (p.ecosystem.scheme.toList ++ '/' :: p.canonicalParts.text) := by
  have pairs : (p.canonicalPairs.map fun (k, v) => k ++ "=" ++ escape v).map String.toList =
      p.canonicalPairs.map pairText := by
    simp [escape, Percent.encodeString, pairText, Function.comp_def]
  rw [canonical, String.toList_append, String.toList_append]
  refine (congrArg (· ++ _) (toList_fragment _ p.fragment?)).trans ((toList_query _ _).trans ?_)
  rw [pairs]
  simp [Parts.text, canonicalParts, escape, Percent.encodeString]

/-! Reading the canonical form. -/

/-- The conditions under which the canonical form is read back. -/
structure Faithful (p : Package) : Prop where
  name : '?' ∉ p.name.toList ∧ '%' ∉ p.name.toList ∧ '@' ∉ p.name.toList.tail
  golang : p.ecosystem = .golang → '#' ∉ p.name.toList ∧ (∀ key ∈ p.options.keys, '#' ∉ key.toList) ∧
    p.option? "subpath" ≠ some ""
  github : p.ecosystem = .github →
    p.repository = some ("https://github.com/" ++ p.name) ∧ p.pin = some (Pin.infer p.version)

variable {p : Package}

theorem mem_pinning {pair : String × String} (h : pair ∈ p.pinning) :
    pair = ("rev", "true") ∨ pair = ("tag", "true") ∨ pair.1 = "repository_url" := by
  unfold pinning at h
  split at h
  · simp at h
  · rcases List.mem_append.mp h with there | there
    · unfold repositoryPairs at there
      split at there <;> simp_all
    · unfold pinPairs at there
      split at there <;> simp_all

theorem WellFormed.isKey (h : p.WellFormed) : ∀ pair ∈ p.canonicalPairs, IsKey pair.1 := by
  intro pair there
  rcases List.mem_append.mp ((canonicalPairs_perm p).mem_iff.mp there) with option | pin
  · exact h.listed.keys pair (List.mem_filter.mp option).1
  · rcases mem_pinning pin with rfl | rfl | named
    · exact ⟨by decide, by decide⟩
    · exact ⟨by decide, by decide⟩
    · rw [named]
      exact ⟨by decide, by decide⟩

theorem Faithful.hash_not_mem_key (h : p.Faithful) (golang : p.ecosystem = .golang) :
    ∀ pair ∈ p.canonicalPairs, '#' ∉ pair.1.toList := by
  intro pair there
  rcases List.mem_append.mp ((canonicalPairs_perm p).mem_iff.mp there) with option | pin
  · exact (h.golang golang).2.1 _ (List.mem_map_of_mem (List.mem_filter.mp option).1)
  · rcases mem_pinning pin with rfl | rfl | named
    · decide
    · decide
    · rw [named]
      decide

theorem Faithful.apart (h : p.Faithful) (wf : p.WellFormed) : p.canonicalParts.Apart := by
  have filled {s : String} (ne : s ≠ "") : s.toList ≠ [] := by simpa using ne
  refine ⟨⟨filled wf.name_ne, h.name.1, h.name.2.2⟩, ⟨?_, ?_⟩, ?_, ?_, ?_⟩
  · exact Percent.encode_ne_nil (filled wf.version_ne)
  · exact sep_not_mem_escaped (by simp) _
  · intro text there
    obtain ⟨pair, hp, rfl⟩ := List.mem_map.mp there
    have key := (wf.isKey pair hp).1
    have value : '&' ∉ Percent.encode isReserved pair.2.toList := sep_not_mem_escaped (by simp) _
    exact ⟨by simp [pairText], by simp [pairText, key, value]⟩
  · intro f there
    obtain ⟨s, found, rfl⟩ := Option.map_eq_some_iff.mp there
    simp only [fragment?] at found
    split at found
    · next golang =>
      have ne : s ≠ "" := by
        rintro rfl
        exact (h.golang golang).2.2 found
      exact ⟨golang, Percent.encode_ne_nil (filled ne), sep_not_mem_escaped (by simp) _⟩
    · cases found
  · intro golang
    refine ⟨(h.golang golang).1, sep_not_mem_escaped (by simp) _, fun text there => ?_⟩
    obtain ⟨pair, hp, rfl⟩ := List.mem_map.mp there
    have key := h.hash_not_mem_key golang pair hp
    have value : '#' ∉ Percent.encode isReserved pair.2.toList := sep_not_mem_escaped (by simp) _
    simp [pairText, key, value]

/-! The canonical form neither begins nor ends with a blank. -/

def EndsSolid (cs : List Char) : Prop := ∀ c ∈ cs.getLast?, Text.isBlank c = false

theorem EndsSolid.append {cs ds : List Char} (hc : EndsSolid cs) (hd : EndsSolid ds) :
    EndsSolid (cs ++ ds) := by
  intro c last
  rw [List.getLast?_append, Option.mem_def, Option.or_eq_some_iff] at last
  rcases last with there | ⟨-, there⟩
  · exact hd c there
  · exact hc c there

theorem endsSolid_escaped (cs : List Char) : EndsSolid (Percent.encode isReserved cs) :=
  fun _ last => escaped_solid (List.mem_of_getLast? last)

theorem endsSolid_behind {sep : Char} (solid : Text.isBlank sep = false) (front : List Char)
    {cs : List Char} (h : EndsSolid cs) : EndsSolid (front ++ sep :: cs) := by
  intro c last
  rw [List.getLast?_append, List.getLast?_cons, Option.some_or, Option.mem_def, Option.some.injEq] at last
  cases hc : cs.getLast? with
  | none =>
    rw [hc, Option.getD_none] at last
    rwa [← last]
  | some d =>
    rw [hc, Option.getD_some] at last
    exact h c (last ▸ hc)

theorem endsSolid_intercalate {pairs : List (List Char)} (h : ∀ pair ∈ pairs, EndsSolid pair) :
    EndsSolid (['&'].intercalate pairs) := by
  induction pairs with
  | nil => simp [EndsSolid]
  | cons pair pairs ih =>
    have later := ih fun pair there => h pair (List.mem_cons_of_mem _ there)
    cases pairs with
    | nil => simpa using h pair List.mem_cons_self
    | cons next pairs =>
      rw [List.intercalate_cons_cons, List.append_assoc]
      exact endsSolid_behind (by decide) pair later

theorem endsSolid_queryText {pairs : List (List Char)} (h : ∀ pair ∈ pairs, EndsSolid pair) :
    EndsSolid (queryText pairs) := by
  cases pairs with
  | nil => simp [queryText, EndsSolid]
  | cons pair pairs => exact endsSolid_behind (by decide) [] (endsSolid_intercalate h)

theorem trimmed_canonical (p : Package) : Text.trimmed p.canonical.toList = p.canonical.toList := by
  rw [toList_canonical]
  refine Text.trimmed_of_ends (by simp; decide) ?_
  have version : EndsSolid (p.name.toList ++ '@' :: Percent.encode isReserved p.version.toList) :=
    endsSolid_behind (by decide) _ (endsSolid_escaped _)
  have fragment : EndsSolid (fragmentText p.canonicalParts.fragment) := by
    simp only [canonicalParts]
    cases p.fragment? with
    | none => simp [fragmentText, EndsSolid]
    | some s => exact endsSolid_behind (by decide) [] (endsSolid_escaped _)
  have query : EndsSolid (queryText p.canonicalParts.pairs) := by
    refine endsSolid_queryText fun text there => ?_
    obtain ⟨pair, -, rfl⟩ := List.mem_map.mp there
    exact endsSolid_behind (by decide) _ (endsSolid_escaped _)
  have text : EndsSolid p.canonicalParts.text := (version.append fragment).append query
  rw [← List.append_assoc]
  exact endsSolid_behind (by decide) _ text

theorem Faithful.ofId?_parts (h : p.Faithful) (wf : p.WellFormed) :
    Parts.ofId? p.canonical.toList = some p.canonicalParts :=
  (h.apart wf).ofId?_text (p.trimmed_canonical.trans p.toList_canonical)

/-! What the canonical query says. -/

theorem pinOf_mem {version : String} {pin : Pin} (h : pin.value = version) :
    pin = .revision version ∨ pin = .tag version := by
  cases pin <;> simp_all [Pin.value]

/-- Repositories and pins are found again among their pairs. -/
theorem WellFormed.pinning_filter (wf : p.WellFormed) :
    p.pinning.filter (IsOption ·) = [] ∧
    (p.pinning.filter (IsRepository ·)).map Prod.snd = p.canonicalQuery.repository.toList ∧
    (p.pinning.filter (IsPin ·)).map (pinOf p.version) = p.canonicalQuery.pin.toList := by
  unfold pinning canonicalQuery
  split
  · simp
  · simp only [List.filter_append, List.map_append]
    have repository : p.repositoryPairs.filter (IsOption ·) = [] ∧
        (p.repositoryPairs.filter (IsRepository ·)).map Prod.snd = p.repository.toList ∧
        p.repositoryPairs.filter (IsPin ·) = [] := by
      unfold repositoryPairs
      cases p.repository <;> simp [IsOption, IsRepository, IsPin]
    have pin : p.pinPairs.filter (IsOption ·) = [] ∧ p.pinPairs.filter (IsRepository ·) = [] ∧
        (p.pinPairs.filter (IsPin ·)).map (pinOf p.version) = p.pin.toList := by
      unfold pinPairs
      cases hp : p.pin with
      | none => simp
      | some pin =>
        rcases pinOf_mem (wf.pinned pin hp) with rfl | rfl
        · simp [IsOption, IsRepository, IsPin, pinOf]
        · simp [IsOption, IsRepository, IsPin, pinOf]
    simp [repository, pin]

theorem eq_of_perm_toList {α : Type} {l : List α} {o : Option α} (h : l.Perm o.toList) :
    l = o.toList := by
  cases o with
  | none => simpa using h
  | some a => simpa using h

theorem WellFormed.canonicalPairs_filter (wf : p.WellFormed) :
    (p.canonicalPairs.filter (IsOption ·)).Perm p.queryOptions ∧
    (p.canonicalPairs.filter (IsRepository ·)).map Prod.snd = p.canonicalQuery.repository.toList ∧
    (p.canonicalPairs.filter (IsPin ·)).map (pinOf p.version) = p.canonicalQuery.pin.toList := by
  have perm := canonicalPairs_perm p
  have plain : ∀ pair ∈ p.queryOptions, IsOption pair := fun pair there =>
    wf.listed.plain pair (List.mem_filter.mp there).1
  have options : p.queryOptions.filter (IsOption ·) = p.queryOptions :=
    List.filter_eq_self.mpr (by simpa using plain)
  have repositories : p.queryOptions.filter (IsRepository ·) = [] :=
    List.filter_eq_nil_iff.mpr (by simpa using fun k v there => (plain (k, v) there).1)
  have pins : p.queryOptions.filter (IsPin ·) = [] :=
    List.filter_eq_nil_iff.mpr (by simpa using fun k v there => (plain (k, v) there).2)
  obtain ⟨option, repository, pin⟩ := wf.pinning_filter
  refine ⟨?_, eq_of_perm_toList ?_, eq_of_perm_toList ?_⟩
  · have found := perm.filter (IsOption ·)
    rwa [List.filter_append, options, option, List.append_nil] at found
  · have found := (perm.filter (IsRepository ·)).map Prod.snd
    rwa [List.filter_append, repositories, List.nil_append, repository] at found
  · have found := (perm.filter (IsPin ·)).map (pinOf p.version)
    rwa [List.filter_append, pins, List.nil_append, pin] at found

theorem WellFormed.addAll_canonical (wf : p.WellFormed) :
    p.canonicalParts.pairs.foldlM (Query.add p.version) ⟨[], none, none⟩ =
      some p.canonicalQuery := by
  obtain ⟨options, repository, pin⟩ := wf.canonicalPairs_filter
  have queried : Table.Sorted p.queryOptions := List.Pairwise.filter _ wf.listed.sorted
  have single : (p.canonicalPairs.filter (IsPin ·)).length + 0 ≤ 1 := by
    have size := congrArg List.length pin
    rw [List.length_map] at size
    rw [size, Nat.add_zero]
    cases p.canonicalQuery.pin <;> simp
  have last {α : Type} (o : Option α) : o.toList.getLast? = o ∧ o.toList.head? = o := by
    cases o <;> exact ⟨rfl, rfl⟩
  rw [canonicalParts, addAll_pairText p.version wf.isKey,
    enterAll p.version (q := ⟨[], none, none⟩) single]
  simp only [Option.or_none, queried.insertAll_of_perm options, ← List.getLast?_map,
    ← List.head?_map, repository, pin, last]
  rfl

theorem WellFormed.addSubpath_canonical (wf : p.WellFormed) :
    addSubpath p.canonicalQuery.options p.canonicalParts.fragment = some p.options := by
  simp only [canonicalParts, canonicalQuery, queryOptions]
  cases hf : p.fragment? with
  | none => simp [addSubpath]
  | some s =>
    have there : p.options.get? "subpath" = some s := by
      unfold fragment? at hf
      split at hf
      · exact hf
      · cases hf
    have rest : (p.options.filter fun (k, _) => (some s).isNone || k != "subpath") =
        p.options.erase "subpath" :=
      List.filter_congr fun (k, _) _ => by
        change (k != "subpath") = decide (k ≠ "subpath")
        by_cases same : k = "subpath" <;> simp [same]
    rw [rest, Option.map_some, addSubpath, Percent.decode?_encode (by decide), Option.map_some,
      String.ofList_toList, wf.listed.sorted.insert_erase there]

theorem Faithful.assemble_canonical (h : p.Faithful) (wf : p.WellFormed) (id : String) :
    assemble id p.ecosystem p.name p.version p.canonicalQuery p.options = { p with id := id } := by
  by_cases github : p.ecosystem = .github
  · obtain ⟨repository, pin⟩ := h.github github
    simp [assemble, canonicalQuery, github, repository, pin]
  · simp only [assemble, canonicalQuery, github, false_and, if_false]
    cases pin : p.pin with
    | some pin => rfl
    | none => simp [wf.fixed pin]

theorem Faithful.reads_canonical (h : p.Faithful) (wf : p.WellFormed) :
    ofId? p.canonical = some { p with id := p.canonical } := by
  have filled {s : String} (ne : s ≠ "") : s.toList ≠ [] := by simpa using ne
  rw [ofId?_eq, h.ofId?_parts wf, Option.bind_some, Parts.read?_eq_some_iff]
  refine ⟨p.name.toList, p.version.toList, p.canonicalQuery, p.options, ?_⟩
  refine ⟨Percent.decode?_of_not_mem h.name.2.1, Percent.decode?_encode (by decide) _,
    filled wf.name_ne, filled wf.version_ne, wf.owned, ?_, wf.addSubpath_canonical, ?_⟩
  · rw [String.ofList_toList]
    exact wf.addAll_canonical
  · rw [String.ofList_toList, String.ofList_toList]
    exact (h.assemble_canonical wf _).symm

/-- A package that was read comes back from its canonical form, with that form for its identifier, and has
the same canonical form as before. -/
theorem ofId?_canonical {id : String} {p : Package} (read : ofId? id = some p) (h : p.Faithful) :
    ofId? p.canonical = some { p with id := p.canonical } ∧
      ({ p with id := p.canonical } : Package).canonical = p.canonical :=
  ⟨h.reads_canonical (wellFormed_of_ofId? read), rfl⟩

/-- A scoped name, a version and values with separators in them, and a pin that was only inferred: the
canonical form writes the pin out, and sorts it behind an option of the same key. -/
theorem ofId?_canonical_scoped :
    let id := " pkg:npm/%40scope/server@1.0%23x?tag=no&repository_url=https://h/r%3Fa&args=--flag%3Da%26b&&="
    let text := "pkg:npm/@scope/server@1.0%23x?=&args=--flag%3Da%26b&repository_url=https://h/r%3Fa&tag=no&tag=true"
    ∃ p, ofId? id = some p ∧ p.Faithful ∧ p.canonical = text ∧ ofId? text = some { p with id := text } ∧
      ({ p with id := text } : Package).canonical = text := by
  intro id text
  let p : Package := ⟨id, .npm, "@scope/server", "1.0#x", some "https://h/r?a", some (.tag "1.0#x"),
    [("", ""), ("args", "--flag=a&b"), ("tag", "no")]⟩
  have read : ofId? id = some p := by decide +kernel
  have faithful : p.Faithful := ⟨by decide +kernel, by simp [p], by simp [p]⟩
  have pairs : p.canonicalPairs = [("", ""), ("args", "--flag=a&b"),
      ("repository_url", "https://h/r?a"), ("tag", "no"), ("tag", "true")] := by
    have sorts (le : String × String → String × String → Bool) (a b c d e : String × String)
        (ab : le a b = true) (ac : le a c = true) (bc : le b c = true) (de : le d e = true)
        (ad : le a d = true) (bd : le b d = true) (cd : le c d = false) (ce : le c e = true) :
        [a, b, c, d, e].mergeSort le = [a, b, d, c, e] := by
      simp [List.mergeSort, List.MergeSort.Internal.splitInTwo, *]
    exact sorts _ _ _ _ _ _ (by decide) (by decide) (by decide) (by decide) (by decide) (by decide)
      (by decide) (by decide)
  have written : p.canonical = text := by
    rw [canonical, pairs]
    decide +kernel
  have again := ofId?_canonical read faithful
  rw [written] at again
  exact ⟨p, read, faithful, written, again⟩

end LanguageHost.Package
