import LanguageHost.Proofs.Json.Reading
import LanguageHost.Proofs.Text.Blank
import LanguageHost.Session.Listener

/-!
What a server is told of the settings. It asks for items, each by the name of a section, and the answers stand
in the order of the items. The name of a section is a chain of keys with dots between; the keys are followed
from the settings down, and the answer is null where they lead nowhere.
-/
namespace LanguageHost

/-! What is asked for. -/

/-- An item: the section of a name, as it is for whatever is at a URL. -/
structure ConfigurationItem where
  scope : Option String
  name : Option String
  url : ∀ u ∈ scope, (Url.normal? u).isSome

namespace ConfigurationItem

def toJson (i : ConfigurationItem) : Json :=
  .obj ((i.scope.map fun u => ("scopeUri", .str u)).toList ++ (i.name.map fun s => ("section", .str s)).toList)

/-- The parameters of a request for items. -/
def params (items : List ConfigurationItem) : Json := .obj [("items", .arr (items.map toJson))]

def shape : Shape := .record [Shape.may "scopeUri" .url, Shape.may "section" .text]

variable (fuel : Nat) (outer : Shape)

/-- The item as it is read: its URL is normal then, and its name the same. -/
theorem readFrom_toJson (i : ConfigurationItem) :
    ∃ j, Shape.readFrom fuel outer shape i.toJson = some j ∧ (j.get? "section").bind Json.str? = i.name := by
  obtain ⟨scope, name, url⟩ := i
  cases scope with
  | none =>
    refine ⟨.obj (name.map fun s => ("section", .str s)).toList, ?_, ?_⟩
    · cases name
      all_goals
        simp [shape, toJson, Shape.may, Shape.readFrom, Shape.readFields, Json.Record.ofJson?,
          Json.Record.occurrences, Json.Record.optional, Json.str?, List.lookup_cons, Json.object]
        rfl
    · cases name <;> rfl
  | some u =>
    obtain ⟨v, normal⟩ := Option.isSome_iff_exists.mp (url u rfl)
    refine ⟨.obj (("scopeUri", .str v) :: (name.map fun s => ("section", .str s)).toList), ?_, ?_⟩
    · cases name
      all_goals
        simp [shape, toJson, Shape.may, Shape.readFrom, Shape.readFields, Json.Record.ofJson?,
          Json.Record.occurrences, Json.Record.optional, Json.str?, List.lookup_cons, Json.object, normal]
        rfl
    · cases name <;> rfl

/-- The items are read one by one. -/
theorem read?_params (items : List ConfigurationItem) :
    ∃ js : List Json, Shape.configurationParams.read? (params items) = some (.obj [("items", .arr js)]) ∧
      js.map (fun j => (j.get? "section").bind Json.str?) = items.map name := by
  have each (fuel : Nat) (outer : Shape) : ∃ js : List Json,
      ((items.map toJson).mapM fun i => Shape.readFrom fuel outer shape i) = some js ∧
        js.map (fun j => (j.get? "section").bind Json.str?) = items.map name := by
    induction items with
    | nil => exact ⟨[], rfl, rfl⟩
    | cons i items ih =>
      obtain ⟨j, here, own⟩ := readFrom_toJson fuel outer i
      obtain ⟨js, there, rest⟩ := ih
      refine ⟨j :: js, ?_, ?_⟩
      · rw [List.map_cons, List.mapM_cons, here, there]
        rfl
      · rw [List.map_cons, List.map_cons, own, rest]
  obtain ⟨js, read, names⟩ := each (Shape.depth (params items)) Shape.configurationParams
  refine ⟨js, ?_, names⟩
  have list : Shape.readFrom (Shape.depth (params items)) Shape.configurationParams (.list shape)
      (.arr (items.map toJson)) = some (.arr js) := by
    rw [Shape.readFrom, read]
    rfl
  have asked : Shape.configurationParams = .record [Shape.need "items" (.list shape)] := rfl
  -- the items are read alike at any depth and within any shape, so that neither need be computed
  rw [Shape.read?]
  generalize Shape.depth (params items) = fuel at list ⊢
  generalize Shape.configurationParams = outer at list asked ⊢
  subst asked
  simp [params, Shape.need, Shape.readFrom.eq_def _ _ (.record _), Shape.readFields, Json.Record.ofJson?,
    Json.Record.occurrences, Json.Record.required, Json.object] at list ⊢
  rw [list]
  rfl

end ConfigurationItem

/-! What is answered. -/

namespace Json

/-- A chain of keys leads from one value to another: each is a key of the object that stands there. -/
inductive Leads : Json → List String → Json → Prop
  | here (j : Json) : Leads j [] j
  | step {members : List (String × Json)} {key : String} {keys : List String} {j k : Json}
      (there : members.lookup key = some j) (rest : Leads j keys k) : Leads (.obj members) (key :: keys) k

/-- A chain of keys meets something that is no object, or a key that is missing. -/
inductive Halts : Json → List String → Prop
  | scalar {j : Json} (other : ∀ members, j ≠ .obj members) (key : String) (keys : List String) :
      Halts j (key :: keys)
  | missing {members : List (String × Json)} {key : String} (absent : key ∉ members.map Prod.fst)
      (keys : List String) : Halts (.obj members) (key :: keys)
  | later {members : List (String × Json)} {key : String} {keys : List String} {j : Json}
      (there : members.lookup key = some j) (rest : Halts j keys) : Halts (.obj members) (key :: keys)

end Json

namespace Listener
open Json (Leads Halts)

variable {j k : Json} {keys : List String}

theorem follow_cons (j : Json) (key : String) (keys : List String) :
    follow j (key :: keys) = (j.get? key).bind fun j => follow j keys := by
  rw [follow, List.foldlM_cons]
  rfl

theorem follow_append (j : Json) (front back : List String) :
    follow j (front ++ back) = (follow j front).bind fun j => follow j back := by
  induction front generalizing j with
  | nil => rfl
  | cons key front ih =>
    rw [List.cons_append, follow_cons, follow_cons, Option.bind_assoc]
    congr 1
    funext j
    exact ih j

theorem follow_eq_some_iff : follow j keys = some k ↔ Leads j keys k := by
  constructor
  · intro found
    induction keys generalizing j with
    | nil =>
      cases found
      exact .here _
    | cons key keys ih =>
      rw [follow_cons] at found
      obtain ⟨next, there, rest⟩ := Option.bind_eq_some_iff.mp found
      cases j with
      | obj members => exact .step there (ih rest)
      | _ => cases there
  · intro leads
    induction leads with
    | here => rfl
    | step there _ ih =>
      rw [follow_cons, Json.get?, there]
      exact ih

theorem follow_eq_none_iff : follow j keys = none ↔ Halts j keys := by
  constructor
  · intro lost
    induction keys generalizing j with
    | nil => cases lost
    | cons key keys ih =>
      rw [follow_cons] at lost
      cases j with
      | obj members =>
        cases there : members.lookup key with
        | none =>
          refine .missing (fun listed => ?_) keys
          obtain ⟨entry, inside, rfl⟩ := List.mem_map.mp listed
          simpa using List.lookup_eq_none_iff.mp there entry inside
        | some next =>
          rw [Json.get?, there] at lost
          exact .later there (ih lost)
      | _ => exact .scalar (by rintro _ ⟨⟩) key keys
  · intro halts
    induction halts with
    | @scalar j other key keys =>
      rw [follow_cons]
      cases j with
      | obj members => exact absurd rfl (other members)
      | _ => rfl
    | @missing members key absent keys =>
      have none : members.lookup key = none := by
        rw [List.lookup_eq_none_iff]
        intro entry there
        rw [bne_iff_ne]
        rintro rfl
        exact absent (List.mem_map_of_mem there)
      rw [follow_cons, Json.get?, none]
      rfl
    | later there _ ih =>
      rw [follow_cons, Json.get?, there]
      exact ih

/-- From null no key leads on. -/
theorem follow_null (keys : List String) : (follow .null keys).getD .null = .null := by
  cases keys with
  | nil => rfl
  | cons key keys =>
    rw [follow_cons]
    rfl

/-! Names of sections. -/

theorem settingsOf_some (settings : Option Json) {name : String} (named : name ≠ "") :
    settingsOf settings (some name) =
      (settings.bind fun j => follow j (Text.split '.' name)).getD .null := by
  cases settings with
  | none => rfl
  | some j =>
    rw [settingsOf]
    · rfl
    · exact named

theorem split_append (s t : String) :
    Text.split '.' (s ++ "." ++ t) = Text.split '.' s ++ Text.split '.' t := by
  have chars : (s ++ "." ++ t).toList = s.toList ++ '.' :: t.toList := by simp
  rw [Text.split, chars, Text.fields_append, List.map_append]
  rfl

/-- The keys of a name: no dots in them, and a dot between one and the next. -/
theorem split_keys (name : String) : Text.split '.' name ≠ [] ∧ (∀ key ∈ Text.split '.' name, '.' ∉ key.toList) ∧
    String.intercalate "." (Text.split '.' name) = name := by
  refine ⟨fun empty => ?_, fun key there => ?_, ?_⟩
  · exact Text.fields_ne_nil _ _ (List.map_eq_nil_iff.mp empty)
  · obtain ⟨cs, listed, rfl⟩ := List.mem_map.mp there
    rw [String.toList_ofList]
    exact Text.not_mem_of_mem_fields listed
  · apply String.toList_inj.mp
    have whole := Text.intercalate_fields '.' name.toList
    rw [String.toList_intercalate, Text.split, List.map_map]
    simpa [Function.comp_def] using whole

/-- What is answered to a request for items. -/
theorem response_configuration (settings : Option Json) (c : Client) (id : RequestId)
    (items : List ConfigurationItem) :
    (react settings c (.request ⟨id, "workspace/configuration", ConfigurationItem.params items⟩)).response =
      some (.ok id (.arr (items.map fun i => settingsOf settings i.name))) := by
  obtain ⟨js, read, names⟩ := ConfigurationItem.read?_params items
  have understood : ServerMethod.understand "workspace/configuration" (ConfigurationItem.params items) =
      .known .configuration (.obj [("items", .arr js)]) := by
    have found : ServerMethod.all.find? (·.word == "workspace/configuration") = some .configuration := rfl
    simp only [ServerMethod.understand, found, ServerMethod.shape?, read]
  have values : js.map (fun j => settingsOf settings ((j.get? "section").bind Json.str?)) =
      items.map fun i => settingsOf settings i.name := by
    have mapped := congrArg (List.map (settingsOf settings)) names
    rwa [List.map_map, List.map_map] at mapped
  simp only [react, onRequest, understood, answer, configuration]
  rw [← values]
  rfl

/-- A request for items is answered with as many values, in their order, each by the name of its own item alone:
the whole settings where there is none, and else what the keys of the name lead to, or null. The value of a name
that goes on behind a dot is that of the rest in the value of its front; and null is answered just where there are
no settings, where a key is missing or asked of something else than an object, or where null is what is found. -/
theorem settings_answers_compose (settings : Option Json) :
    (∀ (c : Client) (id : RequestId) (items : List ConfigurationItem), ∃ values : List Json,
      (react settings c (.request ⟨id, "workspace/configuration", ConfigurationItem.params items⟩)).response =
        some (.ok id (.arr values)) ∧ values.length = items.length ∧
      ∀ (i : Nat) (item : ConfigurationItem), items[i]? = some item → values[i]? = some (settingsOf settings item.name)) ∧
    settingsOf settings none = settings.getD .null ∧ settingsOf settings (some "") = settings.getD .null ∧
    (∀ s t, s ≠ "" → t ≠ "" → settingsOf settings (some (s ++ "." ++ t)) =
      settingsOf (some (settingsOf settings (some s))) (some t)) ∧
    ∀ name, name ≠ "" → ∃ keys, keys ≠ [] ∧ (∀ key ∈ keys, '.' ∉ key.toList) ∧
      String.intercalate "." keys = name ∧
      (∀ whole, settings = some whole → ∀ j, Leads whole keys j → settingsOf settings (some name) = j) ∧
      (settingsOf settings (some name) = .null ↔
        settings = none ∨ ∃ whole, settings = some whole ∧ (Halts whole keys ∨ Leads whole keys .null)) := by
  refine ⟨fun c id items => ⟨_, response_configuration settings c id items, List.length_map _, ?_⟩, ?_, ?_, ?_, ?_⟩
  · intro i item there
    rw [List.getElem?_map, there]
    rfl
  · cases settings <;> rfl
  · cases settings <;> rfl
  · intro s t first second
    have dotted : s ++ "." ++ t ≠ "" := by
      intro empty
      have chars := congrArg String.toList empty
      simp at chars
    rw [settingsOf_some _ dotted, settingsOf_some _ second, settingsOf_some _ first, split_append]
    cases settings with
    | none => exact (follow_null _).symm
    | some whole =>
      rw [Option.bind_some, Option.bind_some, Option.bind_some, follow_append]
      cases follow whole (Text.split '.' s) with
      | none => exact (follow_null _).symm
      | some j => rfl
  · intro name named
    obtain ⟨some, dotless, joined⟩ := split_keys name
    refine ⟨_, some, dotless, joined, ?_, ?_⟩
    · rintro whole rfl j leads
      rw [settingsOf_some _ named, Option.bind_some, follow_eq_some_iff.mpr leads]
      rfl
    · rw [settingsOf_some _ named]
      cases settings with
      | none => exact iff_of_true rfl (.inl rfl)
      | some whole =>
        rw [Option.bind_some]
        constructor
        · intro null
          refine .inr ⟨whole, rfl, ?_⟩
          cases found : follow whole (Text.split '.' name) with
          | none => exact .inl (follow_eq_none_iff.mp found)
          | some j =>
            rw [found] at null
            obtain rfl : j = .null := null
            exact .inr (follow_eq_some_iff.mp found)
        · rintro (absent | ⟨_, ⟨⟩, halts | leads⟩)
          · cases absent
          · rw [follow_eq_none_iff.mpr halts]
            rfl
          · rw [follow_eq_some_iff.mpr leads]
            rfl

end Listener

end LanguageHost
