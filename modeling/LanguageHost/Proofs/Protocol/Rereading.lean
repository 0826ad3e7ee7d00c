import LanguageHost.Proofs.Json.Reading
import LanguageHost.Proofs.Protocol.Values

/-!
A value that is written and read again. A shape keeps its values if each is read from what is written of
it, whatever it was read from at first: unknown members are gone, an array of fields is an object now, and
of two alternatives the one that was taken is the first that fits again.
-/
namespace LanguageHost

/-- The URLs in a value are as they are written. -/
def Typed.Normal (v : Typed) : Prop := ∀ u ∈ v.urls, Url.normal? u = some u

namespace Typed

theorem urls_item {vs : List Typed} {v : Typed} (there : v ∈ vs) {u : String} (h : u ∈ v.urls) :
    u ∈ urlsItems vs := by
  induction vs with
  | nil => cases there
  | cons w vs ih =>
    rw [urlsItems, List.mem_append]
    rcases List.mem_cons.mp there with rfl | later
    · exact .inl h
    · exact .inr (ih later)

theorem urls_field {vs : List (String × Option Typed)} {name : String} {v : Typed}
    (there : (name, some v) ∈ vs) {u : String} (h : u ∈ v.urls) : u ∈ urlsFields vs := by
  induction vs with
  | nil => cases there
  | cons entry vs ih =>
    obtain ⟨key, w?⟩ := entry
    rcases List.mem_cons.mp there with same | later
    · cases same
      exact List.mem_append_left _ h
    · cases w? with
      | none => exact ih later
      | some w => exact List.mem_append_right _ (ih later)

theorem Normal.item {vs : List Typed} {v : Typed} (normal : Normal (.list vs)) (there : v ∈ vs) : v.Normal :=
  fun u h => normal u (urls_item there h)

theorem Normal.field {vs : List (String × Option Typed)} {name : String} {v : Typed}
    (normal : Normal (.record vs)) (there : (name, some v) ∈ vs) : v.Normal :=
  fun u h => normal u (urls_field there h)

end Typed

namespace Shape

theorem depth_item {items : List Json} {j : Json} (there : j ∈ items) : depth j + 1 ≤ depth (.arr items) := by
  rw [depth]
  induction items with
  | nil => cases there
  | cons i items ih =>
    rw [depth.depthItems]
    rcases List.mem_cons.mp there with rfl | later
    · omega
    · have := ih later
      omega

theorem depth_member {members : List (String × Json)} {entry : String × Json} (there : entry ∈ members) :
    depth entry.2 + 1 ≤ depth (.obj members) := by
  rw [depth]
  induction members with
  | nil => cases there
  | cons e members ih =>
    rw [depth.depthMembers]
    rcases List.mem_cons.mp there with rfl | later
    · omega
    · have := ih later
      omega

/-- What is written of a value means itself, is not null unless the value was read from null, and is read
as the value again. The reading needs `room` turns of a loop more than what is written is deep. -/
structure Rereads (outer : Shape) (room : Nat) (s : Shape) (j : Json) (v : Typed) : Prop where
  meant : v.encode.canonical = v.encode
  present : j ≠ .null → v.encode ≠ .null
  again : ∀ fuel, depth v.encode + room ≤ fuel → valueFrom fuel outer s v.encode = some v

/-- A shape whose values are read again. -/
def Keeps (outer : Shape) (fuel room : Nat) (s : Shape) : Prop :=
  ∀ j v, j.IsFinite → v.Normal → valueFrom fuel outer s j = some v → Rereads outer room s j v

variable {outer : Shape} {fuel room : Nat}

/-! Values that hold no others. -/

theorem keeps_plain {s : Shape} {f : Json → Option Json}
    (leaf : ∀ fuel j, valueFrom fuel outer s j = (f j).map .plain)
    (stable : ∀ {j i}, j.IsFinite → f j = some i → i.canonical = i ∧ (j ≠ .null → i ≠ .null) ∧ f i = some i) :
    Keeps outer fuel room s := by
  intro j v finite _ read
  rw [leaf] at read
  obtain ⟨i, found, rfl⟩ := Option.map_eq_some_iff.mp read
  obtain ⟨meant, present, again⟩ := stable finite found
  refine ⟨meant, present, fun fuel' _ => ?_⟩
  rw [leaf]
  exact congrArg (Option.map Typed.plain) again

theorem keeps_any : Keeps outer fuel room .any := by
  refine keeps_plain (f := fun j => some j.canonical) (fun fuel j => valueFrom_any fuel outer j) ?_
  rintro j _ finite ⟨⟩
  exact ⟨j.canonical_canonical, Json.canonical_ne_null finite, congrArg some j.canonical_canonical⟩

theorem keeps_bool : Keeps outer fuel room .bool := by
  refine keeps_plain (f := fun j => j.bool?.map .bool) (fun fuel j => valueFrom_bool fuel outer j) ?_
  intro j i _ found
  obtain ⟨b, -, rfl⟩ := Option.map_eq_some_iff.mp found
  exact ⟨rfl, fun _ => by simp, rfl⟩

theorem keeps_text : Keeps outer fuel room .text := by
  refine keeps_plain (f := fun j => j.str?.map .str) (fun fuel j => valueFrom_text fuel outer j) ?_
  intro j i _ found
  obtain ⟨t, -, rfl⟩ := Option.map_eq_some_iff.mp found
  exact ⟨rfl, fun _ => by simp, rfl⟩

theorem keeps_int {low high : Int} : Keeps outer fuel room (.int low high) := by
  refine keeps_plain (f := fun j => (j.int? low high).map .int)
    (fun fuel j => valueFrom_int fuel outer j low high) ?_
  intro j i _ found
  obtain ⟨n, number, rfl⟩ := Option.map_eq_some_iff.mp found
  cases j with
  | int m =>
    obtain ⟨within, ⟨⟩⟩ := Option.ite_none_right_eq_some.mp number
    exact ⟨rfl, fun _ => by simp, congrArg (Option.map Json.int) (if_pos within)⟩
  | _ => cases number

theorem keeps_word {options : List String} : Keeps outer fuel room (.word options) := by
  refine keeps_plain (f := word? options) (fun fuel j => valueFrom_word fuel outer j options) ?_
  intro j i _ found
  unfold word? at found
  split at found
  all_goals
    first
    | cases found
    | obtain ⟨listed, ⟨⟩⟩ := Option.ite_none_right_eq_some.mp found
      exact ⟨rfl, fun _ => by simp, if_pos listed⟩

theorem keeps_url : Keeps outer fuel room .url := by
  intro j v _ normal read
  rw [valueFrom] at read
  obtain ⟨u, -, rfl⟩ := Option.map_eq_some_iff.mp read
  refine ⟨rfl, nofun, fun fuel' _ => ?_⟩
  rw [valueFrom]
  exact congrArg (Option.map Typed.url) (normal u List.mem_cons_self)

/-! Lists. -/

theorem keeps_list {item : Shape} (keeps : Keeps outer fuel (room + 1) item) :
    Keeps outer fuel room (.list item) := by
  intro j v finite normal read
  rw [valueFrom.eq_def] at read
  cases j with
  | arr items =>
    obtain ⟨vs, found, rfl⟩ := Option.map_eq_some_iff.mp read
    have each {w : Typed} (there : w ∈ vs) : ∃ i, Rereads outer (room + 1) item i w := by
      obtain ⟨i, inside, here⟩ := Json.exists_of_mapM found there
      exact ⟨i, keeps i w (Json.finiteItems_iff.mp finite i inside) (normal.item there) here⟩
    have written : (Typed.list vs).encode = .arr (vs.map Typed.encode) :=
      congrArg Json.arr (Typed.encodeItems_eq vs)
    refine ⟨?_, fun _ => by rw [written]; nofun, fun fuel' deep => ?_⟩
    · rw [written]
      refine congrArg Json.arr (Json.canonicalItems_eq fun i there => ?_)
      obtain ⟨w, inside, rfl⟩ := List.mem_map.mp there
      obtain ⟨_, again⟩ := each inside
      exact again.meant
    · rw [written] at deep ⊢
      rw [valueFrom]
      refine congrArg (Option.map Typed.list) (Json.mapM_map_eq fun w there => ?_)
      obtain ⟨_, again⟩ := each there
      have inner := depth_item (List.mem_map_of_mem (f := Typed.encode) there)
      exact again.again fuel' (by omega)
  | _ => cases read

/-! Records. -/

theorem keys_valueFields {r : Json.Record} {fields : Fields} {vs : List (String × Option Typed)}
    (read : valueFields fuel outer r fields = some vs) : vs.map Prod.fst = fields.map Prod.fst := by
  induction fields generalizing vs with
  | nil =>
    rw [valueFields] at read
    cases read
    rfl
  | cons field fields ih =>
    obtain ⟨name, presence, s⟩ := field
    rw [valueFields] at read
    obtain ⟨v?, -, read⟩ := Option.bind_eq_some_iff.mp read
    obtain ⟨rest, later, rfl⟩ := Option.map_eq_some_iff.mp read
    exact congrArg (name :: ·) (ih later)

theorem mem_encodeFields {vs : List (String × Option Typed)} {name : String} {j : Json} :
    (name, j) ∈ Typed.encodeFields vs ↔ ∃ v, (name, some v) ∈ vs ∧ v.encode = j := by
  induction vs with
  | nil => simp [Typed.encodeFields]
  | cons entry vs ih =>
    obtain ⟨key, v?⟩ := entry
    cases v? with
    | none => simp [Typed.encodeFields, ih]
    | some v =>
      simp only [Typed.encodeFields, List.mem_cons, ih, Prod.mk.injEq, Option.some.injEq]
      constructor
      · rintro (⟨rfl, rfl⟩ | ⟨w, later, same⟩)
        · exact ⟨v, .inl ⟨rfl, rfl⟩, rfl⟩
        · exact ⟨w, .inr later, same⟩
      · rintro ⟨w, ⟨rfl, rfl⟩ | later, same⟩
        · exact .inl ⟨rfl, same.symm⟩
        · exact .inr ⟨w, later, same⟩

theorem keys_encodeFields (vs : List (String × Option Typed)) :
    ((Typed.encodeFields vs).map Prod.fst).Sublist (vs.map Prod.fst) := by
  induction vs with
  | nil => exact .slnil
  | cons entry vs ih =>
    obtain ⟨key, v?⟩ := entry
    cases v? with
    | none => exact ih.cons key
    | some v => exact ih.cons_cons key

/-- What a record is written as has each field that is there under its name, and no other. -/
structure Holds (r : Json.Record) (vs : List (String × Option Typed)) : Prop where
  named : r.positional = false
  there : ∀ {name v}, (name, some v) ∈ vs → r.values.lookup name = some v.encode
  absent : ∀ {name}, (name, none) ∈ vs → r.values.lookup name = none

theorem holds_written {vs : List (String × Option Typed)} (distinct : (vs.map Prod.fst).Nodup) :
    Holds ⟨false, Table.ofList (Typed.encodeFields vs)⟩ vs := by
  refine ⟨rfl, fun {name v} there => ?_, fun {name} there => ?_⟩
  · refine Table.lookup_ofList (distinct.sublist (keys_encodeFields vs)) ?_
    exact mem_encodeFields.mpr ⟨v, there, rfl⟩
  · refine Table.lookup_ofList_of_notMem fun key => ?_
    obtain ⟨⟨_, j⟩, written, rfl⟩ := List.mem_map.mp key
    obtain ⟨v, present, -⟩ := mem_encodeFields.mp written
    cases List.inj_on_of_nodup_map distinct there present rfl

/-- A field is what was read of a value, which may be null only in a field that has to be there; or it is
not there. -/
theorem field_cases {r : Json.Record} {presence : Presence} {name : String} {value : Json → Option Typed}
    {v? : Option Typed} (read : r.field presence name value = some v?) :
    (∃ entry ∈ r.values, ∃ v, value entry.2 = some v ∧ v? = some v ∧
      (presence ≠ .required → entry.2 ≠ .null)) ∨
      (presence = .optional ∧ v? = none) ∨ (presence = .nullable ∧ v? = some .null) := by
  have optional {w? : Option Typed} (here : r.optional name value = some w?) :
      w? = none ∨ ∃ entry ∈ r.values, ∃ v, value entry.2 = some v ∧ w? = some v ∧ entry.2 ≠ .null := by
    unfold Json.Record.optional at here
    split at here
    · obtain ⟨-, ⟨⟩⟩ := Option.ite_none_left_eq_some.mp here
      exact .inl rfl
    · cases here
      exact .inl rfl
    · next j present found =>
      obtain ⟨v, got, rfl⟩ := Option.map_eq_some_iff.mp here
      exact .inr ⟨(name, j), Table.mem_of_lookup found, v, got, rfl, present⟩
  cases presence with
  | required =>
    obtain ⟨v, here, rfl⟩ := Option.map_eq_some_iff.mp read
    obtain ⟨j, found, got⟩ := Option.bind_eq_some_iff.mp here
    exact .inl ⟨(name, j), Table.mem_of_lookup found, v, got, rfl, fun h => absurd rfl h⟩
  | optional =>
    rcases optional read with rfl | ⟨entry, there, v, got, rfl, present⟩
    · exact .inr (.inl ⟨rfl, rfl⟩)
    · exact .inl ⟨entry, there, v, got, rfl, fun _ => present⟩
  | nullable =>
    obtain ⟨w?, here, rfl⟩ := Option.map_eq_some_iff.mp read
    rcases optional here with rfl | ⟨entry, there, v, got, rfl, present⟩
    · exact .inr (.inr ⟨rfl, rfl⟩)
    · exact .inl ⟨entry, there, v, got, rfl, fun _ => present⟩

/-- A field that is there and was read is read again. -/
theorem field_written {r : Json.Record} {presence : Presence} {name : String} {value : Json → Option Typed}
    {v : Typed} (there : r.values.lookup name = some v.encode) (again : value v.encode = some v)
    (present : presence ≠ .required → v.encode ≠ .null) : r.field presence name value = some (some v) := by
  cases presence with
  | required => simp [Json.Record.field, Json.Record.required, there, again]
  | optional => simp [Json.Record.field, Json.Record.optional_some there (present nofun), again]
  | nullable => simp [Json.Record.field, Json.Record.optional_some there (present nofun), again]

theorem Holds.tail {r : Json.Record} {entry : String × Option Typed} {vs : List (String × Option Typed)}
    (h : Holds r (entry :: vs)) : Holds r vs :=
  ⟨h.named, fun there => h.there (List.mem_cons_of_mem _ there),
    fun missing => h.absent (List.mem_cons_of_mem _ missing)⟩

/-- Fields that are read from what is written of them. -/
structure RereadsFields (outer : Shape) (room : Nat) (fields : Fields) (vs : List (String × Option Typed)) :
    Prop where
  meant : ∀ {name v}, (name, some v) ∈ vs → v.encode.canonical = v.encode
  again : ∀ {r fuel}, Holds r vs → (∀ name v, (name, some v) ∈ vs → depth v.encode + room ≤ fuel) →
    valueFields fuel outer r fields = some vs

theorem rereads_fields {r : Json.Record} (finite : ∀ entry ∈ r.values, entry.2.IsFinite) {fields : Fields}
    (keeps : ∀ field ∈ fields, Keeps outer fuel room field.2.2) {vs : List (String × Option Typed)}
    (normal : ∀ {name v}, (name, some v) ∈ vs → v.Normal)
    (read : valueFields fuel outer r fields = some vs) : RereadsFields outer room fields vs := by
  induction fields generalizing vs with
  | nil =>
    rw [valueFields] at read
    cases read
    exact ⟨nofun, fun _ _ => by rw [valueFields]⟩
  | cons field fields ih =>
    obtain ⟨name, presence, s⟩ := field
    rw [valueFields] at read
    obtain ⟨v?, here, read⟩ := Option.bind_eq_some_iff.mp read
    obtain ⟨rest, later, rfl⟩ := Option.map_eq_some_iff.mp read
    have others := ih (fun field there => keeps field (List.mem_cons_of_mem _ there))
      (fun there => normal (List.mem_cons_of_mem _ there)) later
    have first : (∀ v, v? = some v → v.encode.canonical = v.encode) ∧ ∀ {r' : Json.Record} {fuel'},
        Holds r' ((name, v?) :: rest) → (∀ v, v? = some v → depth v.encode + room ≤ fuel') →
        r'.field presence name (fun j => valueFrom fuel' outer s j) = some v? := by
      rcases field_cases here with ⟨entry, inside, v, got, rfl, present⟩ | ⟨rfl, rfl⟩ | ⟨rfl, rfl⟩
      · have again := keeps (name, presence, s) List.mem_cons_self _ v (finite entry inside)
          (normal List.mem_cons_self) got
        refine ⟨by rintro _ ⟨⟩; exact again.meant, fun holds deep => ?_⟩
        exact field_written (holds.there List.mem_cons_self) (again.again _ (deep v rfl))
          fun h => again.present (present h)
      · exact ⟨nofun, fun holds _ =>
          Json.Record.optional_none (holds.absent List.mem_cons_self) holds.named⟩
      · refine ⟨by rintro _ ⟨⟩; rfl, fun holds _ => ?_⟩
        exact congrArg (Option.map fun v => some (Option.getD v Typed.null))
          (Json.Record.optional_null (holds.there List.mem_cons_self))
    constructor
    · intro key v there
      rcases List.mem_cons.mp there with same | there
      · exact first.1 v (Prod.mk.inj same).2.symm
      · exact others.meant there
    · intro r' fuel' holds deep
      rw [valueFields, first.2 holds fun v same => deep name v (same ▸ List.mem_cons_self),
        others.again holds.tail fun key v there => deep key v (List.mem_cons_of_mem _ there)]
      rfl

theorem finite_ofJson? {names : List String} {j : Json} {r : Json.Record} (finite : j.IsFinite)
    (read : Json.Record.ofJson? names j = some r) : ∀ entry ∈ r.values, entry.2.IsFinite := by
  cases j with
  | obj members =>
    obtain ⟨-, ⟨⟩⟩ := Option.ite_none_right_eq_some.mp read
    exact Json.finiteMembers_iff.mp finite
  | arr items =>
    obtain ⟨-, ⟨⟩⟩ := Option.ite_none_right_eq_some.mp read
    exact fun entry there => Json.finiteItems_iff.mp finite _ (List.of_mem_zip there).2
  | _ => cases read

theorem ofJson?_written (names : List String) (vs : List (String × Option Typed)) :
    Json.Record.ofJson? names (Typed.record vs).encode = some ⟨false, Table.ofList (Typed.encodeFields vs)⟩ :=
  Json.Record.ofJson?_obj (Table.sorted_ofList _).nodup_keys names

theorem keeps_record {fields : Fields} (distinct : (fields.map Prod.fst).Nodup)
    (keeps : fields.Forall fun field => Keeps outer fuel (room + 1) field.2.2) :
    Keeps outer fuel room (.record fields) := by
  intro j v finite normal read
  rw [valueFrom] at read
  obtain ⟨r, opened, read⟩ := Option.bind_eq_some_iff.mp read
  obtain ⟨vs, found, rfl⟩ := Option.map_eq_some_iff.mp read
  have again := rereads_fields (finite_ofJson? finite opened)
    (List.forall_iff_forall_mem.mp keeps) (fun there => normal.field there) found
  have different : (vs.map Prod.fst).Nodup := keys_valueFields found ▸ distinct
  refine ⟨Json.canonical_object fun entry there => ?_, fun _ => nofun, fun fuel' deep => ?_⟩
  · obtain ⟨v, inside, same⟩ := mem_encodeFields.mp there
    exact same ▸ again.meant inside
  · have holds := holds_written different
    rw [valueFrom, ofJson?_written, Option.bind_some, again.again holds fun name v there => ?_]
    · rfl
    · have inner : depth v.encode + 1 ≤ depth (.obj (Table.ofList (Typed.encodeFields vs))) :=
        depth_member (Table.mem_of_lookup (holds.there there))
      have deep : depth (.obj (Table.ofList (Typed.encodeFields vs))) + room ≤ fuel' := deep
      omega

/-! Alternatives. -/

/-- What is written of a value of `b` is not taken for a value of `a`, if `a` did not fit at first. -/
def Apart (outer : Shape) (fuel : Nat) (a b : Shape) : Prop :=
  ∀ j v, valueFrom fuel outer a j = none → valueFrom fuel outer b j = some v →
    ∀ fuel', valueFrom fuel' outer a v.encode = none

theorem valueFirst_some {place : Nat} {options : List Shape} {j : Json} {v : Typed}
    (read : valueFirst fuel outer place options j = some v) :
    ∃ i w, v = .alternative i w ∧ ∃ s ∈ options, valueFrom fuel outer s j = some w := by
  induction options generalizing place with
  | nil =>
    rw [valueFirst] at read
    cases read
  | cons s options ih =>
    rw [valueFirst] at read
    cases here : valueFrom fuel outer s j with
    | some w =>
      rw [here] at read
      cases read
      exact ⟨place, w, rfl, s, List.mem_cons_self, here⟩
    | none =>
      rw [here] at read
      obtain ⟨i, w, same, s', there, later⟩ := ih read
      exact ⟨i, w, same, s', List.mem_cons_of_mem _ there, later⟩

theorem rereads_first {options : List Shape} (keeps : ∀ s ∈ options, Keeps outer fuel room s)
    (apart : options.Pairwise (Apart outer fuel)) {j : Json} (finite : j.IsFinite) {v : Typed}
    (normal : v.Normal) {place : Nat} (read : valueFirst fuel outer place options j = some v) :
    v.encode.canonical = v.encode ∧ (j ≠ .null → v.encode ≠ .null) ∧
      ∀ fuel', depth v.encode + room ≤ fuel' → valueFirst fuel' outer place options v.encode = some v := by
  induction options generalizing place with
  | nil =>
    rw [valueFirst] at read
    cases read
  | cons s options ih =>
    rw [valueFirst] at read
    obtain ⟨first, apart⟩ := List.pairwise_cons.mp apart
    cases here : valueFrom fuel outer s j with
    | some w =>
      rw [here] at read
      cases read
      have one : Rereads outer room s j w := keeps s List.mem_cons_self j w finite normal here
      refine ⟨one.meant, one.present, fun fuel' deep => ?_⟩
      rw [valueFirst, show valueFrom fuel' outer s (Typed.alternative place w).encode = some w from
        one.again fuel' deep]
    | none =>
      rw [here] at read
      obtain ⟨meant, present, again⟩ := ih (fun s there => keeps s (List.mem_cons_of_mem _ there)) apart read
      refine ⟨meant, present, fun fuel' deep => ?_⟩
      obtain ⟨i, w, rfl, s', there, later⟩ := valueFirst_some read
      rw [valueFirst, show valueFrom fuel' outer s (Typed.alternative i w).encode = none from
        first s' there j w here later fuel']
      exact again fuel' deep

theorem keeps_choice {options : List Shape} (keeps : options.Forall (Keeps outer fuel room))
    (apart : options.Pairwise (Apart outer fuel)) : Keeps outer fuel room (.choice options) := by
  intro j v finite normal read
  rw [valueFrom] at read
  obtain ⟨meant, present, again⟩ := rereads_first (List.forall_iff_forall_mem.mp keeps) apart finite normal read
  refine ⟨meant, present, fun fuel' deep => ?_⟩
  rw [valueFrom]
  exact again fuel' deep

theorem valueFrom_nullable {value : Shape} {j : Json} (h : j ≠ .null) :
    valueFrom fuel outer (.nullable value) j = (valueFrom fuel outer value j).map .just := by
  rw [valueFrom]
  exact h

theorem keeps_nullable {value : Shape} (keeps : Keeps outer fuel room value) :
    Keeps outer fuel room (.nullable value) := by
  intro j v finite normal read
  by_cases null : j = .null
  · subst null
    rw [valueFrom] at read
    cases read
    exact ⟨rfl, fun h => absurd rfl h, fun _ _ => by rw [Typed.encode, valueFrom]⟩
  · rw [valueFrom_nullable null] at read
    obtain ⟨w, here, rfl⟩ := Option.map_eq_some_iff.mp read
    have again : Rereads outer room value j w := keeps j w finite normal here
    refine ⟨again.meant, again.present, fun fuel' deep => ?_⟩
    have present : (Typed.just w).encode ≠ .null := again.present null
    rw [valueFrom_nullable present]
    have read : valueFrom fuel' outer value w.encode = some w := again.again fuel' deep
    exact congrArg (Option.map Typed.just) read

/-! Loops. -/

theorem keeps_loop {body : Shape} (keeps : Keeps body fuel room body) : Keeps outer fuel room (.loop body) := by
  intro j v finite normal read
  rw [valueFrom] at read
  have again := keeps j v finite normal read
  refine ⟨again.meant, again.present, fun fuel' deep => ?_⟩
  rw [valueFrom]
  exact again.again fuel' deep

theorem keeps_again (keeps : Keeps outer fuel room outer) : Keeps outer (fuel + 1) (room + 1) .again := by
  intro j v finite normal read
  rw [valueFrom] at read
  have again := keeps j v finite normal read
  refine ⟨again.meant, again.present, fun fuel' deep => ?_⟩
  obtain ⟨less, rfl⟩ := Nat.exists_eq_add_of_le' (show 1 ≤ fuel' by omega)
  rw [valueFrom]
  exact again.again less (by omega)

/-- Without a turn of the loop left nothing is read. -/
theorem keeps_again_zero : Keeps outer 0 room .again := by
  intro j v _ _ read
  rw [valueFrom] at read
  cases read

/-! What is not taken for another. -/

/-- Text is never what a list or a record is written as. -/
theorem text_apart_record {fields : Fields} : Apart outer fuel .text (.record fields) := by
  intro j v _ read fuel'
  rw [valueFrom] at read
  obtain ⟨r, -, read⟩ := Option.bind_eq_some_iff.mp read
  obtain ⟨vs, -, rfl⟩ := Option.map_eq_some_iff.mp read
  rw [valueFrom_text]
  rfl

theorem text_apart_list {item : Shape} : Apart outer fuel .text (.list item) := by
  intro j v _ read fuel'
  rw [valueFrom.eq_def] at read
  cases j with
  | arr items =>
    obtain ⟨vs, -, rfl⟩ := Option.map_eq_some_iff.mp read
    rw [valueFrom_text]
    rfl
  | _ => cases read

theorem valueFields_missing {r : Json.Record} {fields : Fields} {name : String} {s : Shape}
    (needed : need name s ∈ fields) (missing : r.values.lookup name = none) :
    valueFields fuel outer r fields = none := by
  induction fields with
  | nil => cases needed
  | cons field fields ih =>
    obtain ⟨key, presence, s'⟩ := field
    rw [valueFields]
    rcases List.mem_cons.mp needed with same | later
    · cases same
      simp [Json.Record.field, Json.Record.required, missing]
    · rw [ih later]
      exact Option.bind_fun_none _

/-- A record is not read from one that is written without a field it needs. -/
theorem unread_record {fields other : Fields} (name : String) (s : Shape) (needed : need name s ∈ fields)
    (unknown : name ∉ other.map Prod.fst) {j : Json} {v : Typed}
    (read : valueFrom fuel outer (.record other) j = some v) (outer' : Shape) (fuel' : Nat) :
    valueFrom fuel' outer' (.record fields) v.encode = none := by
  rw [valueFrom] at read
  obtain ⟨r, -, read⟩ := Option.bind_eq_some_iff.mp read
  obtain ⟨vs, found, rfl⟩ := Option.map_eq_some_iff.mp read
  have missing : (Table.ofList (Typed.encodeFields vs)).lookup name = none := by
    refine Table.lookup_ofList_of_notMem fun key => unknown ?_
    rw [← keys_valueFields found]
    exact (keys_encodeFields vs).subset key
  rw [valueFrom, ofJson?_written, Option.bind_some, valueFields_missing needed missing]
  rfl

/-- An empty list fits at first, so that a list which does not has an item. -/
theorem list_apart_list {a b : Shape} (unread : ∀ i w, valueFrom fuel outer b i = some w →
    ∀ fuel', valueFrom fuel' outer a w.encode = none) : Apart outer fuel (.list a) (.list b) := by
  intro j v unfit read fuel'
  rw [valueFrom.eq_def] at read
  cases j with
  | arr items =>
    obtain ⟨vs, found, rfl⟩ := Option.map_eq_some_iff.mp read
    cases items with
    | nil =>
      rw [valueFrom] at unfit
      cases unfit
    | cons i items =>
      rw [List.mapM_cons] at found
      obtain ⟨w, here, found⟩ := Option.bind_eq_some_iff.mp found
      obtain ⟨ws, -, ⟨⟩⟩ := Option.bind_eq_some_iff.mp found
      rw [Typed.encode, Typed.encodeItems, valueFrom, List.mapM_cons, unread i w here fuel']
      rfl
  | _ => cases read

/-- What is written of a value that a shape keeps means itself, and has that value. -/
theorem value?_encode {s : Shape} (keeps : ∀ fuel, Keeps s fuel 0 s) {j : Json} {v : Typed}
    (finite : j.IsFinite) (normal : v.Normal) (read : s.value? j = some v) :
    v.encode.canonical = v.encode ∧ s.value? v.encode = some v := by
  have again := keeps (depth j) j v finite normal read
  exact ⟨again.meant, again.again _ (Nat.le_refl _)⟩

end Shape

end LanguageHost
