import LanguageHost.Proofs.Protocol.Rereading
import LanguageHost.Session.Query

/-!
What a value that was read has: a record its fields, each read for its shape, a list its items. What is written
of it has them too, so symbols, links and hints can be read again.
-/
namespace LanguageHost

namespace Typed

/-- The value of a field that is there. -/
def field? (name : String) : Typed → Option Typed
  | .record fields => (fields.lookup name).join
  | _ => none

end Typed

namespace Shape

variable {outer : Shape} {fuel : Nat} {fields : Fields}

theorem field?_of_mem {vs : List (String × Option Typed)} (distinct : (vs.map Prod.fst).Nodup) {name : String}
    {v? : Option Typed} (there : (name, v?) ∈ vs) : (Typed.record vs).field? name = v? := by
  have found : vs.lookup name = some v? := by
    induction vs with
    | nil => cases there
    | cons entry vs ih =>
      obtain ⟨key, w?⟩ := entry
      obtain ⟨absent, distinct⟩ := List.nodup_cons.mp distinct
      rcases List.mem_cons.mp there with same | later
      · cases same
        exact List.lookup_cons_self
      · have other : name ≠ key := by
          rintro rfl
          exact absent (List.mem_map.mpr ⟨_, later, rfl⟩)
        rw [List.lookup_cons, beq_eq_false_iff_ne.mpr other]
        exact ih distinct later
  rw [Typed.field?, found]
  rfl

theorem field?_of_notMem {vs : List (String × Option Typed)} {name : String} (absent : name ∉ vs.map Prod.fst) :
    (Typed.record vs).field? name = none := by
  have found : vs.lookup name = none := by
    rw [List.lookup_eq_none_iff]
    intro entry there
    rw [bne_iff_ne]
    rintro rfl
    exact absent (List.mem_map_of_mem there)
  rw [Typed.field?, found]
  rfl

/-- What is written of a record has just the fields that are there. -/
theorem get?_encode {vs : List (String × Option Typed)} (distinct : (vs.map Prod.fst).Nodup) (name : String) :
    (Typed.record vs).encode.get? name = ((Typed.record vs).field? name).map Typed.encode := by
  have written : (Typed.record vs).encode.get? name = (Table.ofList (Typed.encodeFields vs)).lookup name := rfl
  have holds := holds_written distinct
  rw [written]
  by_cases key : name ∈ vs.map Prod.fst
  · obtain ⟨⟨_, v?⟩, there, rfl⟩ := List.mem_map.mp key
    rw [field?_of_mem distinct there]
    cases v? with
    | none => exact holds.absent there
    | some v => exact holds.there there
  · rw [field?_of_notMem key]
    refine Table.lookup_ofList_of_notMem fun there => key ?_
    exact (keys_encodeFields vs).subset there

/-- A value that was read for a record has its fields. -/
structure Fielded (outer : Shape) (fuel : Nat) (fields : Fields) (v : Typed) : Prop where
  required : ∀ name s, (name, .required, s) ∈ fields →
    ∃ w j, v.field? name = some w ∧ valueFrom fuel outer s j = some w
  optional : ∀ name s, (name, .optional, s) ∈ fields →
    v.field? name = none ∨ ∃ w j, v.field? name = some w ∧ valueFrom fuel outer s j = some w
  unknown : ∀ {name}, name ∉ fields.map Prod.fst → v.field? name = none
  written : ∀ name, v.encode.get? name = (v.field? name).map Typed.encode
  record : ∃ members, v.encode = .obj members

theorem mem_of_valueFields {r : Json.Record} {vs : List (String × Option Typed)}
    (read : valueFields fuel outer r fields = some vs) {name : String} {presence : Presence} {s : Shape}
    (there : (name, presence, s) ∈ fields) :
    ∃ v?, (name, v?) ∈ vs ∧ (r.field presence name fun j => valueFrom fuel outer s j) = some v? := by
  induction fields generalizing vs with
  | nil => cases there
  | cons field fields ih =>
    obtain ⟨key, presence', s'⟩ := field
    rw [valueFields] at read
    obtain ⟨v?, here, read⟩ := Option.bind_eq_some_iff.mp read
    obtain ⟨rest, later, rfl⟩ := Option.map_eq_some_iff.mp read
    rcases List.mem_cons.mp there with same | inside
    · cases same
      exact ⟨v?, List.mem_cons_self, here⟩
    · obtain ⟨w?, listed, found⟩ := ih later inside
      exact ⟨w?, List.mem_cons_of_mem _ listed, found⟩

theorem fielded {j : Json} {v : Typed} (distinct : (fields.map Prod.fst).Nodup)
    (read : valueFrom fuel outer (.record fields) j = some v) : Fielded outer fuel fields v := by
  rw [valueFrom] at read
  obtain ⟨r, -, read⟩ := Option.bind_eq_some_iff.mp read
  obtain ⟨vs, found, rfl⟩ := Option.map_eq_some_iff.mp read
  have keys := keys_valueFields found
  have distinct' : (vs.map Prod.fst).Nodup := keys ▸ distinct
  refine ⟨fun {name s} there => ?_, fun {name s} there => ?_, fun {name} absent => ?_, get?_encode distinct',
    _, rfl⟩
  · obtain ⟨v?, listed, here⟩ := mem_of_valueFields found there
    obtain ⟨w, got, rfl⟩ := Option.map_eq_some_iff.mp here
    obtain ⟨i, -, here⟩ := Option.bind_eq_some_iff.mp got
    exact ⟨w, i, field?_of_mem distinct' listed, here⟩
  · obtain ⟨v?, listed, here⟩ := mem_of_valueFields found there
    rcases field_cases here with ⟨entry, -, w, got, rfl, -⟩ | ⟨-, rfl⟩ | ⟨nullable, -⟩
    · exact .inr ⟨w, entry.2, field?_of_mem distinct' listed, got⟩
    · exact .inl (field?_of_mem distinct' listed)
    · cases nullable
  · exact field?_of_notMem (keys ▸ absent)

/-- So has one that was read and written again. -/
theorem exists_fielded {params j : Json} (distinct : (fields.map Prod.fst).Nodup)
    (read : (Shape.record fields).read? params = some j) :
    ∃ fuel v, j = v.encode ∧ Fielded (.record fields) fuel fields v := by
  rw [read?_eq] at read
  obtain ⟨v, found, rfl⟩ := Option.map_eq_some_iff.mp read
  exact ⟨_, v, rfl, fielded distinct found⟩

theorem text_of_read {j : Json} {v : Typed} (read : valueFrom fuel outer .text j = some v) :
    ∃ s, v = .plain (.str s) := by
  rw [valueFrom_text] at read
  obtain ⟨i, found, rfl⟩ := Option.map_eq_some_iff.mp read
  obtain ⟨s, -, rfl⟩ := Option.map_eq_some_iff.mp found
  exact ⟨s, rfl⟩

theorem int_of_read {j : Json} {v : Typed} {low high : Int}
    (read : valueFrom fuel outer (.int low high) j = some v) :
    ∃ n, v = .plain (.int n) ∧ low ≤ n ∧ n ≤ high := by
  rw [valueFrom_int] at read
  obtain ⟨i, found, rfl⟩ := Option.map_eq_some_iff.mp read
  obtain ⟨n, number, rfl⟩ := Option.map_eq_some_iff.mp found
  cases j with
  | int m =>
    obtain ⟨within, ⟨⟩⟩ := Option.ite_none_right_eq_some.mp number
    exact ⟨n, rfl, within⟩
  | _ => cases number

theorem list_of_read {item : Shape} {j : Json} {v : Typed} (read : valueFrom fuel outer (.list item) j = some v) :
    ∃ vs, v = .list vs ∧ ∀ w ∈ vs, ∃ i, valueFrom fuel outer item i = some w := by
  rw [valueFrom.eq_def] at read
  cases j with
  | arr items =>
    obtain ⟨vs, found, rfl⟩ := Option.map_eq_some_iff.mp read
    refine ⟨vs, rfl, fun w there => ?_⟩
    obtain ⟨i, -, here⟩ := Json.exists_of_mapM found there
    exact ⟨i, here⟩
  | _ => cases read

theorem url_of_read {j : Json} {v : Typed} (read : valueFrom fuel outer .url j = some v) : ∃ u, v = .url u := by
  rw [valueFrom] at read
  obtain ⟨u, -, rfl⟩ := Option.map_eq_some_iff.mp read
  exact ⟨u, rfl⟩

/-! What is written of a field that has to be there. -/

namespace Fielded
variable {v : Typed} {name : String}

theorem get?_text (h : Fielded outer fuel fields v) (there : (name, .required, .text) ∈ fields) :
    ∃ s, v.encode.get? name = some (.str s) := by
  obtain ⟨w, j, found, read⟩ := h.required name .text there
  obtain ⟨s, rfl⟩ := text_of_read read
  exact ⟨s, by rw [h.written, found]; rfl⟩

theorem get?_url (h : Fielded outer fuel fields v) (there : (name, .required, .url) ∈ fields) :
    ∃ u, v.encode.get? name = some (.str u) := by
  obtain ⟨w, j, found, read⟩ := h.required name .url there
  obtain ⟨u, rfl⟩ := url_of_read read
  exact ⟨u, by rw [h.written, found]; rfl⟩

theorem get?_list {item : Shape} (h : Fielded outer fuel fields v)
    (there : (name, .required, .list item) ∈ fields) :
    ∃ vs : List Typed, v.encode.get? name = some (.arr (vs.map Typed.encode)) ∧
      ∀ w ∈ vs, ∃ i, valueFrom fuel outer item i = some w := by
  obtain ⟨w, j, found, read⟩ := h.required name (.list item) there
  obtain ⟨vs, rfl, each⟩ := list_of_read read
  refine ⟨vs, ?_, each⟩
  rw [h.written, found, ← Typed.encodeItems_eq]
  rfl

end Fielded

end Shape

end LanguageHost

/-! The results whose values are read again from what is written of them: symbols, links and hints. -/
namespace LanguageHost

namespace Shape
variable {outer : Shape} {fuel room : Nat}

theorem keeps_position : Keeps outer fuel room position :=
  keeps_record (by decide) ⟨keeps_int, keeps_int⟩

theorem keeps_range : Keeps outer fuel room range :=
  keeps_record (by decide) ⟨keeps_position, keeps_position⟩

theorem keeps_location : Keeps outer fuel room location :=
  keeps_record (by decide) ⟨keeps_url, keeps_range⟩

theorem keeps_command : Keeps outer fuel room command :=
  keeps_record (by decide) ⟨keeps_text, keeps_text, keeps_list keeps_any⟩

theorem keeps_textEdit : Keeps outer fuel room textEdit :=
  keeps_record (by decide) ⟨keeps_range, keeps_text⟩

theorem keeps_markup : Keeps outer fuel room markup :=
  keeps_record (by decide) ⟨keeps_word, keeps_text⟩

theorem keeps_textOrMarkup : Keeps outer fuel room textOrMarkup :=
  keeps_choice ⟨keeps_text, keeps_markup⟩ (List.pairwise_pair.mpr text_apart_record)

theorem keeps_hintPart : Keeps outer fuel room hintPart :=
  keeps_record (by decide) ⟨keeps_text, keeps_textOrMarkup, keeps_location, keeps_command⟩

theorem keeps_inlayHint : Keeps outer fuel room inlayHint :=
  keeps_record (by decide) ⟨keeps_position,
    keeps_choice ⟨keeps_text, keeps_list keeps_hintPart⟩ (List.pairwise_pair.mpr text_apart_list),
    keeps_int, keeps_list keeps_textEdit, keeps_textOrMarkup, keeps_bool, keeps_bool, keeps_any⟩

theorem keeps_documentLink : Keeps outer fuel room documentLink :=
  keeps_record (by decide) ⟨keeps_range, keeps_url, keeps_text, keeps_any⟩

theorem keeps_symbolInformation : Keeps outer fuel room symbolInformation :=
  keeps_record (by decide) ⟨keeps_text, keeps_int, keeps_list keeps_int, keeps_bool, keeps_location,
    keeps_text⟩

theorem keeps_documentSymbol : Keeps outer fuel room documentSymbol := by
  refine keeps_loop ?_
  induction fuel generalizing room with
  | zero =>
    exact keeps_record (by decide) ⟨keeps_text, keeps_text, keeps_int, keeps_list keeps_int, keeps_bool,
      keeps_range, keeps_range, keeps_list keeps_again_zero⟩
  | succ fuel ih =>
    exact keeps_record (by decide) ⟨keeps_text, keeps_text, keeps_int, keeps_list keeps_int, keeps_bool,
      keeps_range, keeps_range, keeps_list (keeps_again ih)⟩

/-- Symbols one by one are told from symbols with others inside them by their places. -/
theorem symbolInformation_apart : Apart outer fuel (.list symbolInformation) (.list documentSymbol) := by
  refine list_apart_list fun i w read fuel' => ?_
  rw [documentSymbol, valueFrom] at read
  exact unread_record "location" location (by simp) (by decide) read outer fuel'

end Shape

end LanguageHost
