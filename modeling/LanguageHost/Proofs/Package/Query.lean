import LanguageHost.Proofs.Json.Reading
import LanguageHost.Proofs.Package.Canonical

/-! What the fields of a query say. Each says a key and a decoded value; together they say the options, a
repository and a pin, or nothing where two of them are pins. With keys that differ their order does not
count, and neither do empty fields between them, nor where the fragment of a module stands among them. -/
namespace LanguageHost

namespace Package
open Json (mapM_eq_some_iff exists_mapM_perm)

/-- What a field says. Its key is as it is written. -/
def Field.said? (f : Field) : Option (String × String) :=
  (Percent.decode? f.raw).map fun value => (String.ofList f.key, String.ofList value)

namespace Field
variable {f : Field} {fields : List Field} {pair : String × String} {pairs : List (String × String)}

/-- The field gives a repository. -/
def IsRepository (f : Field) : Prop := f.key = "repository_url".toList

/-- The field gives a pin. -/
def IsPin (f : Field) : Prop :=
  (f.key = "rev".toList ∨ f.key = "tag".toList) ∧ Percent.decode? f.raw = some "true".toList

instance (f : Field) : Decidable f.IsPin := inferInstanceAs (Decidable (_ ∧ _))

theorem isPair_of_key (ne : f.key ≠ []) : f.IsPair := by
  intro empty
  exact ne (List.append_eq_nil_iff.mp empty).1

theorem IsPin.isPair (h : f.IsPin) : f.IsPair := by
  apply isPair_of_key
  rcases h.1 with named | named <;> simp [named]

theorem IsRepository.isPair (h : f.IsRepository) : f.IsPair := by
  apply isPair_of_key
  unfold IsRepository at h
  simp [h]

theorem ofList_eq_iff {cs : List Char} {s : String} : String.ofList cs = s ↔ cs = s.toList := by
  rw [← String.toList_inj, String.toList_ofList]

theorem isRepository_said (said : f.said? = some pair) : Package.IsRepository pair ↔ f.IsRepository := by
  obtain ⟨value, -, rfl⟩ := Option.map_eq_some_iff.mp said
  exact ofList_eq_iff

theorem isPin_said (said : f.said? = some pair) : Package.IsPin pair ↔ f.IsPin := by
  obtain ⟨value, decoded, rfl⟩ := Option.map_eq_some_iff.mp said
  simp only [Package.IsPin, IsPin, decoded, Option.some_inj, ofList_eq_iff]

theorem length_pins (said : fields.mapM Field.said? = some pairs) :
    (pairs.filter (Package.IsPin ·)).length = (fields.filter (·.IsPin)).length := by
  have each := mapM_eq_some_iff.mp said
  clear said
  induction each with
  | nil => rfl
  | @cons f pair _ _ first _ ih =>
      have same := isPin_said first
      by_cases pin : Package.IsPin pair
      · rw [List.filter_cons_of_pos (by simpa using pin), List.filter_cons_of_pos (by simpa using same.mp pin),
          List.length_cons, List.length_cons, ih]
      · have other := mt same.mpr pin
        rw [List.filter_cons_of_neg (by simpa using pin), List.filter_cons_of_neg (by simpa using other), ih]

end Field

namespace Query
variable {version : String} {q : Query}

theorem add_text {f : Field} (proper : f.Proper) :
    q.add version f.text = f.said?.bind fun pair => q.enter version pair.1 pair.2 := by
  rw [add_eq, proper.cut, Field.said?]
  cases Percent.decode? f.raw <;> rfl

/-- What decoded pairs add to a query one after the other. -/
def enterAll? (version : String) (q : Query) (pairs : List (String × String)) : Option Query :=
  pairs.foldlM (fun q pair => q.enter version pair.1 pair.2) q

/-- A query is read as if its fields were decoded first. -/
theorem addAll_texts {fields : List Field} (proper : ∀ f ∈ fields, f.Proper) :
    (fields.map Field.text).foldlM (Query.add version) q =
      (fields.mapM Field.said?).bind (enterAll? version q) := by
  induction fields generalizing q with
  | nil => rfl
  | cons f fields ih =>
      have later := fun q => ih (q := q) fun g there => proper g (List.mem_cons_of_mem _ there)
      rw [List.map_cons, List.foldlM_cons, add_text (proper f List.mem_cons_self), List.mapM_cons]
      simp only [bind, later]
      cases f.said? with
      | none => rfl
      | some pair =>
          cases fields.mapM Field.said? with
          | none => simp
          | some pairs => rfl

/-- Two pins are refused. -/
theorem enterAll?_several {pairs : List (String × String)}
    (several : 1 < (pairs.filter (IsPin ·)).length + q.pin.toList.length) :
    enterAll? version q pairs = none := by
  induction pairs generalizing q with
  | nil =>
      cases pin : q.pin <;> simp [pin] at several
  | cons pair pairs ih =>
      unfold enterAll? at ih ⊢
      rw [List.foldlM_cons, Option.bind_eq_bind]
      by_cases pin : IsPin pair
      · rw [List.filter_cons_of_pos (by simpa using pin), List.length_cons] at several
        cases pinned : q.pin with
        | none =>
            rw [enter_pin pin pinned, Option.bind_some]
            apply ih
            simp only [pinned, Option.toList_none, List.length_nil] at several
            simpa using several
        | some other =>
            have named : ¬ pair.1 = "repository_url" := pin.not_repository
            have is : (pair.1 = "rev" ∨ pair.1 = "tag") ∧ pair.2 = "true" := pin
            rw [enter, if_neg named, if_pos is, if_pos (by simp [pinned])]
            rfl
      · rw [List.filter_cons_of_neg (by simpa using pin)] at several
        by_cases repository : IsRepository pair
        · rw [enter_repository repository, Option.bind_some]
          exact ih several
        · rw [enter_option ⟨repository, pin⟩, Option.bind_some]
          exact ih several

/-- What pairs say together: the options with the last value of each key, the last repository and the only
pin. -/
def ofPairs? (version : String) (pairs : List (String × String)) : Option Query :=
  if (pairs.filter (IsPin ·)).length ≤ 1 then
    some ⟨Table.ofList (pairs.filter (IsOption ·)), (pairs.filter (IsRepository ·)).getLast?.map Prod.snd,
      (pairs.filter (IsPin ·)).head?.map (pinOf version)⟩
  else none

theorem ofPairs?_eq_some_iff {pairs : List (String × String)} : ofPairs? version pairs = some q ↔
    (pairs.filter (IsPin ·)).length ≤ 1 ∧
      q = ⟨Table.ofList (pairs.filter (IsOption ·)),
        (pairs.filter (IsRepository ·)).getLast?.map Prod.snd,
        (pairs.filter (IsPin ·)).head?.map (pinOf version)⟩ := by
  unfold ofPairs?
  split
  · next single => simp [single, eq_comm]
  · next several => simp [several]

theorem enterAll?_eq (version : String) (pairs : List (String × String)) :
    enterAll? version ⟨[], none, none⟩ pairs = ofPairs? version pairs := by
  unfold ofPairs?
  split
  · next single =>
      refine (enterAll version (q := ⟨[], none, none⟩) single).trans ?_
      simp only [Option.or_none]
      rfl
  · next several => exact enterAll?_several (by simpa using several)

/-- Fields that are decoded one by one, and what they say together. -/
theorem addAll_eq {fields : List Field} (proper : ∀ f ∈ fields, f.Proper) :
    (fields.map Field.text).foldlM (Query.add version) ⟨[], none, none⟩ =
      (fields.mapM Field.said?).bind (ofPairs? version) := by
  rw [addAll_texts proper]
  exact congrArg _ (funext (enterAll?_eq version))

/-- Of pairs with keys that differ at most one gives a repository. -/
theorem length_repositories {pairs : List (String × String)} (distinct : (pairs.map Prod.fst).Nodup) :
    (pairs.filter (IsRepository ·)).length ≤ 1 := by
  have same : (pairs.filter (IsRepository ·)).map Prod.fst =
      List.replicate ((pairs.filter (IsRepository ·)).map Prod.fst).length "repository_url" := by
    apply List.eq_replicate_of_mem
    intro key there
    obtain ⟨pair, found, rfl⟩ := List.mem_map.mp there
    have named : IsRepository pair := by simpa using (List.mem_filter.mp found).2
    exact named
  have nodup : ((pairs.filter (IsRepository ·)).map Prod.fst).Nodup :=
    distinct.sublist (List.filter_sublist.map Prod.fst)
  rw [same, List.nodup_replicate, List.length_map] at nodup
  exact nodup

theorem eq_of_perm_single {l l' : List α} (same : l.Perm l') (single : l.length ≤ 1) : l = l' := by
  cases l with
  | nil => exact same.nil_eq
  | cons a l =>
      cases l with
      | nil => exact (List.perm_singleton.mp same.symm).symm
      | cons b l => simp at single

/-- Pairs with keys that differ say the same in any order. -/
theorem ofPairs?_perm {pairs others : List (String × String)} (same : pairs.Perm others)
    (distinct : (pairs.map Prod.fst).Nodup) : ofPairs? version pairs = ofPairs? version others := by
  have options : Table.ofList (pairs.filter (IsOption ·)) = Table.ofList (others.filter (IsOption ·)) :=
    Table.ofList_perm (same.filter _) (distinct.sublist (List.filter_sublist.map Prod.fst))
  have repositories : pairs.filter (IsRepository ·) = others.filter (IsRepository ·) :=
    eq_of_perm_single (same.filter _) (length_repositories distinct)
  unfold ofPairs?
  rw [options, repositories, ← (same.filter (IsPin ·)).length_eq]
  split
  · next single => rw [eq_of_perm_single (same.filter (IsPin ·)) single]
  · rfl

theorem keys_said {fields : List Field} {pairs : List (String × String)}
    (said : fields.mapM Field.said? = some pairs) :
    pairs.map Prod.fst = (fields.map Field.key).map String.ofList := by
  have each := mapM_eq_some_iff.mp said
  clear said
  induction each with
  | nil => rfl
  | cons first _ ih =>
      obtain ⟨value, -, rfl⟩ := Option.map_eq_some_iff.mp first
      rw [List.map_cons, List.map_cons, List.map_cons, ih]

/-- Fields with keys that differ say the same in any order, if they can be decoded. -/
theorem said_perm {fields others : List Field} (same : fields.Perm others)
    (distinct : (fields.map Field.key).Nodup) :
    (fields.mapM Field.said?).bind (ofPairs? version) = (others.mapM Field.said?).bind (ofPairs? version) := by
  cases said : fields.mapM Field.said? with
  | none =>
      cases said' : others.mapM Field.said? with
      | none => rfl
      | some pairs =>
          obtain ⟨pairs', made, -⟩ := exists_mapM_perm same.symm said'
          cases said.symm.trans made
  | some pairs =>
      obtain ⟨pairs', said', perm⟩ := exists_mapM_perm same said
      rw [said', Option.bind_some, Option.bind_some]
      refine ofPairs?_perm perm ?_
      rw [keys_said said]
      exact List.Pairwise.map _ (fun _ _ other same => other (String.ofList_injective same)) distinct

end Query

/-! What does not count. -/

/-- The package without the identifier that it was read from. -/
def unnamed (p : Package) : Package := { p with id := "" }

/-- Both identifiers are refused, or they are read as the same package but for the identifier. -/
def ReadAlike (id id' : String) : Prop := (ofId? id).map unnamed = (ofId? id').map unnamed

/-- The identifier is only carried along. -/
theorem Parts.unnamed_read? {t t' : Parts} {id id' : String} (ecosystem : t.ecosystem = t'.ecosystem)
    (name : t.name = t'.name) (version : t.version = t'.version) (fragment : t.fragment = t'.fragment)
    (query : ∀ version, t.pairs.foldlM (Query.add version) ⟨[], none, none⟩ =
      t'.pairs.foldlM (Query.add version) ⟨[], none, none⟩) :
    (t.read? id).map unnamed = (t'.read? id').map unnamed := by
  unfold read?
  rw [ecosystem, name, version, fragment]
  simp only [bind, query]
  cases Percent.decode? t'.name with
  | none => rfl
  | some name =>
      cases Percent.decode? t'.version with
      | none => rfl
      | some version =>
          simp only [Option.bind_some]
          split
          · rfl
          · cases t'.pairs.foldlM (Query.add (String.ofList version)) ⟨[], none, none⟩ with
            | none => rfl
            | some q =>
                simp only [Option.bind_some]
                cases addSubpath q.options t'.fragment with
                | none => rfl
                | some options => rfl

namespace Field
variable {f : Field} {fields others : List Field}

/-- Nothing in the field ends it, or is a blank. -/
structure Plain (f : Field) : Prop where
  proper : f.Proper
  hash : '#' ∉ f.text
  solid : ∀ c ∈ f.text, Text.isBlank c = false

instance (f : Field) : Decidable f.Plain :=
  decidable_of_iff (f.Proper ∧ '#' ∉ f.text ∧ f.text.any Text.isBlank = false)
    ⟨fun h => ⟨h.1, h.2.1, fun c there => Bool.eq_false_iff.mpr (List.any_eq_false.mp h.2.2 c there)⟩,
      fun h => ⟨h.proper, h.hash, List.any_eq_false.mpr fun c there => by simp [h.solid c there]⟩⟩

theorem plain_of_not_isPair (h : ¬ f.IsPair) : f.Plain := by
  have empty : f.text = [] := Classical.not_not.mp h
  have key : f.key = [] := (List.append_eq_nil_iff.mp empty).1
  refine ⟨⟨?_, ?_⟩, ?_, ?_⟩
  · simp [key]
  · simp [empty]
  · simp [empty]
  · simp [empty]

/-- The same pairs in some order, with any empty fields between them. -/
def Rearranged (fields others : List Field) : Prop :=
  (fields.filter (·.IsPair)).Perm (others.filter (·.IsPair))

instance (fields others : List Field) : Decidable (Rearranged fields others) :=
  inferInstanceAs (Decidable (List.Perm _ _))

theorem Rearranged.plain (same : Rearranged fields others) (plain : ∀ f ∈ fields, f.Plain) :
    ∀ f ∈ others, f.Plain := by
  intro f there
  by_cases pair : f.IsPair
  · have found : f ∈ others.filter (·.IsPair) := by simp [there, pair]
    exact plain f (List.mem_filter.mp (same.mem_iff.mpr found)).1
  · exact plain_of_not_isPair pair

theorem hash_not_mem_joined (plain : ∀ f ∈ fields, f.Plain) : '#' ∉ joined fields := by
  apply Parts.not_mem_intercalate (by decide)
  intro text there
  obtain ⟨f, inside, rfl⟩ := List.mem_map.mp there
  exact (plain f inside).hash

theorem endsSolid_joined (plain : ∀ f ∈ fields, f.Plain) : EndsSolid (joined fields) := by
  apply endsSolid_intercalate
  intro text there
  obtain ⟨f, inside, rfl⟩ := List.mem_map.mp there
  exact fun c last => (plain f inside).solid c (List.mem_of_getLast? last)

end Field

open Text (behind)
open Package.Field (Rearranged)

/-- An identifier of a scheme. -/
def identifier (scheme path : List Char) : String :=
  String.ofList ("pkg:".toList ++ (scheme ++ '/' :: path))

theorem trimmed_identifier (scheme : List Char) {path : List Char} (solid : EndsSolid path) :
    Text.trimmed (identifier scheme path).toList = "pkg:".toList ++ (scheme ++ '/' :: path) := by
  have chars : (identifier scheme path).toList = "pkg:".toList ++ (scheme ++ '/' :: path) := String.toList_ofList
  rw [chars]
  refine Text.trimmed_of_ends (by simp; decide) ?_
  rw [← List.append_assoc]
  exact endsSolid_behind (by decide) _ solid

namespace Spelling
variable {s s' : Spelling}

/-- Spellings that differ in the order of the pairs alone are read alike. -/
theorem Proper.readAlike (proper : s.Proper) (proper' : s'.Proper) (solid : EndsSolid s.path)
    (solid' : EndsSolid s'.path) (ecosystem : s.ecosystem = s'.ecosystem) (name : s.name = s'.name)
    (version : s.version = s'.version) (fragment : s.fragment = s'.fragment)
    (same : Rearranged s.fields s'.fields)
    (distinct : ((s.fields.filter (·.IsPair)).map Field.key).Nodup) :
    ReadAlike (identifier s.ecosystem.scheme.toList s.path)
      (identifier s'.ecosystem.scheme.toList s'.path) := by
  unfold ReadAlike
  rw [Package.ofId?_eq, Package.ofId?_eq, proper.ofId? (trimmed_identifier _ solid),
    proper'.ofId? (trimmed_identifier _ solid'), Option.bind_some, Option.bind_some]
  have subpath : s.subpath = s'.subpath := congrArg (Option.filter _) fragment
  refine Parts.unnamed_read? ecosystem name (congrArg versionText version) subpath fun decoded => ?_
  have pairs : ∀ f ∈ s.fields.filter (·.IsPair), f.Proper := fun f there =>
    proper.fields f (List.mem_filter.mp there).1
  have pairs' : ∀ f ∈ s'.fields.filter (·.IsPair), f.Proper := fun f there =>
    proper'.fields f (List.mem_filter.mp there).1
  exact (Query.addAll_eq pairs).trans ((Query.said_perm same distinct).trans (Query.addAll_eq pairs').symm)

theorem proper_of_plain (name : '@' ∉ s.name.tail ∧ (s.version.isSome → s.name ≠ []))
    (asks : '?' ∉ s.body) (clear : '#' ∉ s.body) (plain : ∀ f ∈ s.fields, f.Plain)
    (fragment : ∀ f ∈ s.fragment, s.ecosystem = .golang ∧ '?' ∉ f)
    (trailing : s.trailing.isSome → s.fragment.isSome) : s.Proper := by
  refine ⟨name, asks, fun f there => (plain f there).proper, fragment, trailing, fun _ => ?_⟩
  unfold front
  cases query : s.query with
  | none => simpa [behind] using clear
  | some fields =>
      have hash : '#' ∉ joined fields := by
        apply Field.hash_not_mem_joined
        intro f there
        exact plain f (List.mem_append_left _ (by simpa [query] using there))
      simp [behind, clear, hash]

end Spelling

/-- A text with a query behind it. -/
def queried (front : List Char) (fields : List Field) : List Char := front ++ '?' :: joined fields

theorem endsSolid_queried (front : List Char) {fields : List Field} (plain : ∀ f ∈ fields, f.Plain) :
    EndsSolid (queried front fields) :=
  endsSolid_behind (by decide) front (Field.endsSolid_joined plain)

theorem ofId?_identifier_of_unknown {scheme path : List Char} (solid : EndsSolid path)
    (whole : '/' ∉ scheme) (unknown : Ecosystem.ofScheme? (String.ofList scheme) = none) :
    ofId? (identifier scheme path) = none := by
  rw [ofId?_eq, Parts.ofId?, trimmed_identifier scheme solid, Text.afterStart?_append]
  simp only [bind, Option.bind_some, Text.cut?_append whole, unknown, Option.bind_none]

section forms
variable {body : List Char} {fields others : List Field} (asks : '?' ∉ body) (clear : '#' ∉ body)
  (plain : ∀ f ∈ fields, f.Plain) (distinct : ((fields.filter (·.IsPair)).map Field.key).Nodup)
include asks clear plain distinct

theorem readAlike_queried (same : Rearranged fields others) {scheme : List Char} (whole : '/' ∉ scheme) :
    ReadAlike (identifier scheme (queried body fields)) (identifier scheme (queried body others)) := by
  have plain' := same.plain plain
  cases known : Ecosystem.ofScheme? (String.ofList scheme) with
  | none =>
      unfold ReadAlike
      rw [ofId?_identifier_of_unknown (endsSolid_queried body plain) whole known,
        ofId?_identifier_of_unknown (endsSolid_queried body plain') whole known]
  | some e =>
      obtain rfl : scheme = e.scheme.toList := by
        rw [← Ecosystem.eq_scheme_of_ofScheme? known, String.toList_ofList]
      obtain ⟨name, version, apart, named, rfl⟩ := exists_version body
      have path (fields : List Field) : Spelling.path ⟨e, name, version, some fields, none, none⟩ =
          queried (name ++ behind '@' version) fields := by
        simp [Spelling.path, Spelling.front, Spelling.body, queried, behind]
      have proper {fields : List Field} (plain : ∀ f ∈ fields, f.Plain) :
          Spelling.Proper ⟨e, name, version, some fields, none, none⟩ := by
        refine Spelling.proper_of_plain ⟨apart, named⟩ asks clear ?_ (by simp) (by simp)
        simpa [Spelling.fields] using plain
      have solid {fields : List Field} (plain : ∀ f ∈ fields, f.Plain) :
          EndsSolid (Spelling.path ⟨e, name, version, some fields, none, none⟩) := by
        rw [path]
        exact endsSolid_queried _ plain
      have alike := (proper plain).readAlike (proper plain') (solid plain) (solid plain') rfl rfl rfl rfl
        (by simpa [Spelling.fields] using same) (by simpa [Spelling.fields] using distinct)
      rwa [path, path] at alike

end forms

/-! The fragment of a module. -/

section placed
variable {name fragment : List Char} {version : Option (List Char)}

/-- The spelling of a module with a query before its fragment, behind it, or both. -/
def placed (name : List Char) (version : Option (List Char)) (fragment : List Char)
    (query trailing : Option (List Field)) : Spelling :=
  ⟨.golang, name, version, query, some fragment, trailing⟩

variable (named : '@' ∉ name.tail ∧ (version.isSome → name ≠ []))
  (asks : '?' ∉ name ++ behind '@' version) (clear : '#' ∉ name ++ behind '@' version)
  (ended : '?' ∉ fragment) (solid : ∀ c ∈ fragment, Text.isBlank c = false)
include named asks clear ended solid

theorem proper_placed {query trailing : Option (List Field)}
    (plain : ∀ f ∈ query.getD [] ++ trailing.getD [], f.Plain) :
    (placed name version fragment query trailing).Proper ∧
      EndsSolid (placed name version fragment query trailing).path := by
  constructor
  · refine Spelling.proper_of_plain named asks clear plain ?_ fun _ => rfl
    rintro f ⟨⟩
    exact ⟨rfl, ended⟩
  · have last : EndsSolid (fragment ++ behind '?' (trailing.map joined)) := by
      cases trailing with
      | none =>
          intro c there
          rw [Option.map_none, behind, List.append_nil] at there
          exact solid c (List.mem_of_getLast? there)
      | some fields => exact endsSolid_queried fragment fun f there => plain f (List.mem_append_right _ there)
    exact endsSolid_behind (by decide) _ last

/-- Wherever the pairs stand about the fragment, they are read alike. -/
theorem readAlike_placed (query trailing query' trailing' : Option (List Field))
    (plain : ∀ f ∈ query.getD [] ++ trailing.getD [], f.Plain)
    (distinct : (((query.getD [] ++ trailing.getD []).filter (·.IsPair)).map Field.key).Nodup)
    (same : Rearranged (query.getD [] ++ trailing.getD []) (query'.getD [] ++ trailing'.getD [])) :
    ReadAlike (identifier Ecosystem.golang.scheme.toList (placed name version fragment query trailing).path)
      (identifier Ecosystem.golang.scheme.toList (placed name version fragment query' trailing').path) := by
  obtain ⟨proper, ends⟩ := proper_placed named asks clear ended solid plain
  obtain ⟨proper', ends'⟩ := proper_placed named asks clear ended solid (same.plain plain)
  -- elaborated apart from the goal, against which the identifiers would be computed
  have alike := proper.readAlike proper' ends ends' rfl rfl rfl rfl same distinct
  exact alike

end placed

/-- The order of the query pairs does not count, nor do empty fields between them, if their keys differ and
none of them holds a blank, an `&` or a `#`. And for a module it does not count where its fragment stands:
between the pairs, before or behind them all. -/
theorem order_and_place_do_not_count {body : List Char} (asks : '?' ∉ body) (clear : '#' ∉ body)
    {fields : List Field} (plain : ∀ f ∈ fields, f.Plain)
    (distinct : ((fields.filter (·.IsPair)).map Field.key).Nodup) :
    (∀ scheme others, '/' ∉ scheme → Rearranged fields others →
      ReadAlike (identifier scheme (queried body fields)) (identifier scheme (queried body others))) ∧
    ∀ fragment : List Char, '?' ∉ fragment → (∀ c ∈ fragment, Text.isBlank c = false) →
      ∀ before after all, Rearranged fields (before ++ after) → Rearranged fields all →
        let between :=
          identifier Ecosystem.golang.scheme.toList (queried body before ++ '#' :: queried fragment after)
        ReadAlike between (identifier Ecosystem.golang.scheme.toList (body ++ '#' :: queried fragment all)) ∧
        ReadAlike between (identifier Ecosystem.golang.scheme.toList (queried body all ++ '#' :: fragment)) := by
  constructor
  · intro scheme others whole same
    exact readAlike_queried asks clear plain distinct same whole
  · intro fragment ended solid before after all split same between
    obtain ⟨name, version, apart, named, rfl⟩ := exists_version body
    have both : Rearranged (before ++ after) all := split.symm.trans same
    have plain' := split.plain plain
    have distinct' : (((before ++ after).filter (·.IsPair)).map Field.key).Nodup :=
      (split.map Field.key).nodup_iff.mp distinct
    have path : (placed name version fragment (some before) (some after)).path =
        queried (name ++ behind '@' version) before ++ '#' :: queried fragment after := rfl
    constructor
    · have alike := readAlike_placed ⟨apart, named⟩ asks clear ended solid
        (some before) (some after) none (some all) plain' distinct' both
      have ahead : (placed name version fragment none (some all)).path =
          name ++ behind '@' version ++ '#' :: queried fragment all := by
        simp [placed, Spelling.path, Spelling.front, Spelling.body, behind, queried]
      rwa [path, ahead] at alike
    · have alike := readAlike_placed ⟨apart, named⟩ asks clear ended solid
        (some before) (some after) (some all) none plain' distinct' (by simpa using both)
      have last : (placed name version fragment (some all) none).path =
          queried (name ++ behind '@' version) all ++ '#' :: fragment := by
        simp [placed, Spelling.path, Spelling.front, Spelling.body, behind, queried]
      rwa [path, last] at alike

theorem shuffled_module_is_read_alike :
    (ofId? "pkg:golang/g.o/x@v1?tag=true#a?k=v").isSome ∧
      ReadAlike "pkg:golang/g.o/x@v1?tag=true#a?k=v" "pkg:golang/g.o/x@v1#a?k=v&&tag=true" ∧
      ReadAlike "pkg:golang/g.o/x@v1?tag=true#a?k=v" "pkg:golang/g.o/x@v1?k=v&&tag=true#a" := by
  let tag : Field := ⟨"tag".toList, some "true".toList⟩
  let option : Field := ⟨"k".toList, some "v".toList⟩
  have asks : '?' ∉ "g.o/x@v1".toList := by decide
  have plain : ∀ f ∈ [tag, option], f.Plain := by decide
  obtain ⟨-, moved⟩ := order_and_place_do_not_count asks (by decide) plain (by decide)
  obtain ⟨ahead, last⟩ := moved "a".toList (by decide) (List.forall_mem_singleton.mpr (by decide))
    [tag] [option] [option, ⟨[], none⟩, tag] (by decide) (by decide)
  exact ⟨by decide +kernel, ahead, last⟩

end Package

end LanguageHost
