import LanguageHost.Config.Manifest
import LanguageHost.Proofs.Json.Pretty
import LanguageHost.Proofs.Json.Reading
import LanguageHost.Proofs.Table

/-! Manifests as text. What a format has to keep for a manifest to be the same in memory and in its file;
indented JSON keeps it. -/
namespace LanguageHost.Manifest
open Table (Sorted)
open Json (mapM_map_eq exists_of_mapM)

/-- The languages are in order, and so are the variables of each server. -/
def Ordered (m : Manifest) : Prop := Sorted m ∧ ∀ e ∈ m, Sorted e.2.binary.env

theorem ordered_nil : Ordered [] := ⟨List.Pairwise.nil, by simp⟩

theorem Ordered.insert {m : Manifest} (h : Ordered m) (language : String) {server : InstalledServer}
    (env : Sorted server.binary.env) : Ordered (Table.insert language server m) := by
  refine ⟨h.1.insert language server, fun e there => ?_⟩
  rcases Table.mem_insert there with rfl | before
  · exact env
  · exact h.2 e before

theorem Ordered.insertAll {m : Manifest} (h : Ordered m) {entries : List (String × InstalledServer)}
    (env : ∀ e ∈ entries, Sorted e.2.binary.env) : Ordered (Table.insertAll m entries) := by
  induction entries generalizing m with
  | nil => exact h
  | cons e entries ih =>
      exact ih (h.insert e.1 (env e (by simp))) fun e' later => env e' (by simp [later])

namespace Format

/-- A manifest that has a text is read from it again, and what is read is in order. -/
structure Lawful (format : Format) : Prop where
  reads : ∀ m text, Ordered m → format.write m = .ok text → format.read? text = some m
  ordered : ∀ text m, format.read? text = some m → Ordered m

end Format

/-! Indented JSON. -/

theorem list?_ofStrings (ss : List String) : Json.list? Json.str? (Json.ofStrings ss) = some ss :=
  mapM_map_eq fun _ _ => rfl

section tables
variable {value : Json → Option α} {write : α → Json}

theorem table?_obj {t : Table α} (sorted : Sorted t) (each : ∀ e ∈ t, value (write e.2) = some e.2) :
    Json.table? value (.obj (t.map fun e => (e.1, write e.2))) = some t := by
  have entries : (t.map fun e => (e.1, write e.2)).mapM
      (fun e => (value e.2).map fun a => (e.1, a)) = some t := by
    refine mapM_map_eq fun e there => ?_
    change (value (write e.2)).map _ = _
    rw [each e there]
    rfl
  change (List.mapM (fun e : String × Json => (value e.2).map fun a => (e.1, a)) _ >>= fun entries =>
    pure (Table.ofList entries)) = _
  rw [entries]
  exact congrArg some (sorted.insertAll_of_perm (.refl t))

theorem sorted_of_table? {j : Json} {t : Table α} (h : Json.table? value j = some t) : Sorted t := by
  cases j with
  | obj members =>
      obtain ⟨entries, _, made⟩ := Option.bind_eq_some_iff.mp h
      cases made
      have start : Sorted ([] : Table α) := List.Pairwise.nil
      exact start.insertAll entries
  | _ => cases h

theorem exists_of_table? {j : Json} {t : Table α} (h : Json.table? value j = some t) {e : String × α}
    (there : e ∈ t) : ∃ j, value j = some e.2 := by
  cases j with
  | obj members =>
      obtain ⟨entries, read, made⟩ := Option.bind_eq_some_iff.mp h
      cases made
      have entered : e ∈ entries := by simpa using Table.mem_insertAll there
      obtain ⟨member, _, same⟩ := exists_of_mapM read entered
      obtain ⟨a, here, rfl⟩ := Option.map_eq_some_iff.mp same
      exact ⟨member.2, here⟩
  | _ => cases h

end tables

theorem binaryOfJson?_toJson {b : ServerBinary} (env : Sorted b.env) :
    binaryOfJson? (binaryToJson b) = some b := by
  have args := list?_ofStrings b.args
  have environment : Json.table? Json.str? (Json.ofStringTable b.env) = some b.env :=
    table?_obj env fun _ _ => rfl
  simp [binaryOfJson?, binaryToJson, binaryFields, Json.Record.ofJson?, Json.Record.occurrences,
    Json.Record.required, Json.Record.defaulted, UserConfig.path?, Json.str?, List.lookup_cons, args,
    environment]

theorem serverOfJson?_toJson {server : InstalledServer} (env : Sorted server.binary.env) :
    serverOfJson? (serverToJson server) = some server := by
  have binary := binaryOfJson?_toJson env
  simp [serverOfJson?, serverToJson, serverFields, Json.Record.ofJson?, Json.Record.occurrences,
    Json.Record.required, Json.str?, Json.bool?, List.lookup_cons, binary]

theorem ofJson?_toJson {m : Manifest} (ordered : Ordered m) : ofJson? (toJson m) = some m :=
  table?_obj ordered.1 fun e there => serverOfJson?_toJson (ordered.2 e there)

/-! What is wanted of a manifest's text is all of it. -/

theorem numberless_ofStrings (ss : List String) : Json.Numberless (Json.ofStrings ss) := by
  change Json.NumberlessItems (ss.map .str)
  induction ss with
  | nil => trivial
  | cons s ss ih => exact ⟨trivial, ih⟩

theorem numberless_ofStringTable (t : Table String) : Json.Numberless (Json.ofStringTable t) := by
  change Json.NumberlessMembers (t.map _)
  induction t with
  | nil => trivial
  | cons e t ih => exact ⟨trivial, ih⟩

theorem numberless_toJson (m : Manifest) : Json.Numberless (toJson m) := by
  refine ⟨?_, trivial⟩
  change Json.NumberlessMembers (m.map _)
  induction m with
  | nil => trivial
  | cons e m ih =>
      refine ⟨⟨trivial, trivial, trivial, ⟨trivial, ?_, ?_, trivial⟩, trivial, trivial, trivial⟩, ih⟩
      · exact numberless_ofStrings _
      · exact numberless_ofStringTable _

theorem covers_ofStrings (ss : List String) : Json.Covers .whole (Json.ofStrings ss) := by
  refine ⟨rfl, ?_⟩
  generalize 0 = place
  induction ss generalizing place with
  | nil => trivial
  | cons s ss ih => exact ⟨rfl, ih (place + 1)⟩

theorem covers_ofStringTable (t : Table String) : Json.Covers .whole (Json.ofStringTable t) := by
  refine ⟨rfl, ?_⟩
  induction t with
  | nil => trivial
  | cons e t ih => exact ⟨rfl, ih⟩

theorem covers_toJson (m : Manifest) : Json.Covers (.fields fields) (toJson m) := by
  refine ⟨rfl, ⟨rfl, ?_⟩, trivial⟩
  induction m with
  | nil => trivial
  | cons e m ih =>
      refine ⟨⟨rfl, rfl, rfl, rfl, ⟨rfl, rfl, ?_, ?_, trivial⟩, rfl, rfl, trivial⟩, ih⟩
      · exact covers_ofStrings _
      · exact covers_ofStringTable _

theorem depth_ofStrings (ss : List String) : Json.depth (Json.ofStrings ss) = 1 := by
  change Json.depthItems (ss.map .str) + 1 = 1
  induction ss with
  | nil => rfl
  | cons s ss ih => simpa [Json.depthItems, Json.depth] using ih

theorem depth_ofStringTable (t : Table String) : Json.depth (Json.ofStringTable t) = 1 := by
  change Json.depthMembers (t.map fun e => (e.1, .str e.2)) + 1 = 1
  induction t with
  | nil => rfl
  | cons e t ih => simpa [Json.depthMembers, Json.depth] using ih

theorem depth_serverToJson (server : InstalledServer) : Json.depth (serverToJson server) = 3 := by
  simp [serverToJson, binaryToJson, Json.depth, Json.depthMembers, depth_ofStrings,
    depth_ofStringTable]

theorem depth_toJson (m : Manifest) : Json.depth (toJson m) ≤ 5 := by
  change max (Json.depthMembers (m.map fun e => (e.1, serverToJson e.2)) + 1) 0 + 1 ≤ 5
  have inner : Json.depthMembers (m.map fun e => (e.1, serverToJson e.2)) ≤ 3 := by
    induction m with
    | nil => exact Nat.zero_le _
    | cons e m ih =>
        rw [List.map_cons, Json.depthMembers, depth_serverToJson]
        omega
  omega

/-- A manifest in order is read from its indented text. -/
theorem ofText?_pretty {m : Manifest} (ordered : Ordered m) :
    ofText? ((toJson m).pretty 0) = some m := by
  have room : Json.depth (toJson m) < Json.depthLimit := by
    have shallow := depth_toJson m
    have limit : Json.depthLimit = 128 := rfl
    omega
  unfold ofText?
  rw [Json.read?_pretty (numberless_toJson m) (covers_toJson m) room 0]
  exact ofJson?_toJson ordered

theorem sorted_of_binaryOfJson? {j : Json} {b : ServerBinary} (h : binaryOfJson? j = some b) :
    Sorted b.env := by
  obtain ⟨r, _, h⟩ := Option.bind_eq_some_iff.mp h
  obtain ⟨path, _, h⟩ := Option.bind_eq_some_iff.mp h
  obtain ⟨args, _, h⟩ := Option.bind_eq_some_iff.mp h
  obtain ⟨env, read, made⟩ := Option.bind_eq_some_iff.mp h
  cases made
  unfold Json.Record.defaulted at read
  split at read
  · cases read
    exact List.Pairwise.nil
  · exact sorted_of_table? read

theorem sorted_of_serverOfJson? {j : Json} {server : InstalledServer}
    (h : serverOfJson? j = some server) : Sorted server.binary.env := by
  obtain ⟨r, _, h⟩ := Option.bind_eq_some_iff.mp h
  obtain ⟨package, _, h⟩ := Option.bind_eq_some_iff.mp h
  obtain ⟨version, _, h⟩ := Option.bind_eq_some_iff.mp h
  obtain ⟨date, _, h⟩ := Option.bind_eq_some_iff.mp h
  obtain ⟨binary, read, h⟩ := Option.bind_eq_some_iff.mp h
  obtain ⟨method, _, h⟩ := Option.bind_eq_some_iff.mp h
  obtain ⟨enabled, _, made⟩ := Option.bind_eq_some_iff.mp h
  cases made
  obtain ⟨j, _, read⟩ := Option.bind_eq_some_iff.mp read
  exact sorted_of_binaryOfJson? read

theorem ordered_of_ofText? {text : String} {m : Manifest} (h : ofText? text = some m) : Ordered m := by
  obtain ⟨j, _, h⟩ := Option.bind_eq_some_iff.mp h
  obtain ⟨r, _, h⟩ := Option.bind_eq_some_iff.mp h
  obtain ⟨servers, _, h⟩ := Option.bind_eq_some_iff.mp h
  refine ⟨sorted_of_table? h, fun e there => ?_⟩
  obtain ⟨j, read⟩ := exists_of_table? h there
  exact sorted_of_serverOfJson? read

theorem lawful_json : json.Lawful where
  reads m text ordered written := by
    cases written
    exact ofText?_pretty ordered
  ordered _ _ := ordered_of_ofText?

end LanguageHost.Manifest
