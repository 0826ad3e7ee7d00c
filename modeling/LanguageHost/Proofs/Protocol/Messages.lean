import LanguageHost.Proofs.Json.Compact
import LanguageHost.Proofs.Json.Reading
import LanguageHost.Proofs.Protocol.Frames

/-! Messages that are written and read again. A body does not say of which kind its message is: the reader
goes by the members that are there, and the writer leaves out parameters that are null and what is absent. -/
namespace LanguageHost

theorem RequestId.ofJson?_toJson (id : RequestId) : RequestId.ofJson? id.toJson = some id := by
  cases id with
  | text s => rfl
  | number n =>
    have low : (-0x80000000 : Int) ≤ n.toInt := n.le_toInt
    have high : n.toInt ≤ 0x7fffffff := n.toInt_le
    simp [toJson, ofJson?, Json.int32?, Json.int?, low, high, Int32.ofInt_toInt]

namespace Json

/-- A value as it is kept: no float, integers of 64 bits, and objects in order. -/
def Exact (j : Json) : Prop := j.Integral ∧ j.canonical = j

/-- A null value is as good as none. -/
def present : Option Json → Option Json
  | some .null => none
  | j? => j?

theorem free?_eq {j : Json} (exact : j.Exact) : free? j = some j := congrArg some exact.2

theorem present_some {j : Json} (h : j ≠ .null) : present (some j) = some j := by
  cases j with
  | null => exact absurd rfl h
  | _ => rfl

namespace Record
variable {r : Record} {name : String} {value : Json → Option α}

/-- A free-form field that was written when it was there. -/
theorem optional_free {j? : Option Json} (there : r.values.lookup name = j?) (named : r.positional = false)
    (exact : ∀ j ∈ j?, j.Exact) : r.optional name free? = some (present j?) := by
  cases j? with
  | none => exact optional_none there named
  | some j =>
    by_cases null : j = .null
    · subst null
      exact optional_null there
    · rw [optional_some there null, free?_eq (exact j rfl), present_some null]
      rfl

end Record

end Json

namespace ResponseError

/-- The error as it arrives. -/
def arrived (e : ResponseError) : ResponseError := { e with data := Json.present e.data }

theorem ofJson?_toJson {e : ResponseError} (exact : ∀ j ∈ e.data, j.Exact) :
    ofJson? e.toJson = some e.arrived := by
  obtain ⟨code, message, data⟩ := e
  have low : (-0x80000000 : Int) ≤ code.toInt := code.le_toInt
  have high : code.toInt ≤ 0x7fffffff := code.toInt_le
  let record : Json.Record := ⟨false, [("code", .int code.toInt), ("message", .str message)] ++
    (data.map fun j => ("data", j.canonical)).toList⟩
  have read : Json.Record.ofJson? ["code", "message", "data"] (toJson ⟨code, message, data⟩) =
      some record := by
    apply Json.Record.ofJson?_obj
    cases data <;> simp
  have number : record.required "code" Json.int32? = some code.toInt := by
    simp [record, Json.Record.required, Json.int32?, Json.int?, low, high]
  have text : record.required "message" Json.str? = some message := rfl
  have there : record.values.lookup "data" = data := by
    cases data with
    | none => rfl
    | some j => exact congrArg some (exact j rfl).2
  have found := Json.Record.optional_free there rfl exact
  unfold ofJson?
  rw [read]
  simp [number, text, found, arrived, Int32.ofInt_toInt]

end ResponseError

namespace Message

/-- The free-form parts. -/
def parts : Message → List Json
  | .request r => [r.params]
  | .response r => r.result.toList ++ (r.error.bind (·.data)).toList
  | .notification n => [n.params]

/-- The message as it arrives. -/
def arrived : Message → Message
  | .response r =>
    .response { r with result := Json.present r.result, error := r.error.map ResponseError.arrived }
  | m => m

theorem paramsMember_cases (j : Json) :
    j = .null ∧ paramsMember j = [] ∨ paramsMember j = [("params", j.canonical)] := by
  cases j <;> simp [paramsMember]

theorem lookup_paramsMember {name : String} (other : name ≠ "params") (j : Json) :
    (paramsMember j).lookup name = none := by
  rcases paramsMember_cases j with ⟨-, written⟩ | written
  · simp [written]
  · have ne : (name == "params") = false := beq_false_of_ne other
    simp [written, List.lookup_cons, ne]

/-- The members as a record. -/
def record (m : Message) : Json.Record := ⟨false, ("jsonrpc", .str "2.0") :: m.members⟩

/-- No member is repeated, of whichever kind the message is. -/
theorem ofJson?_toJson (m : Message) (names : List String) :
    Json.Record.ofJson? names m.toJson = some m.record := by
  apply Json.Record.ofJson?_obj
  cases m with
  | request r =>
    rcases paramsMember_cases r.params with ⟨-, written⟩ | written
    · simp [members, written]
    · simp [members, written]
  | response r => rcases r with ⟨id, _ | j, _ | e⟩ <;> simp [members]
  | notification n =>
    rcases paramsMember_cases n.params with ⟨-, written⟩ | written
    · simp [members, written]
    · simp [members, written]

/-- Parameters that are left out are null. -/
theorem defaulted_params {m : Message} (front : List (String × Json)) {j : Json}
    (values : m.record.values = front ++ paramsMember j) (absent : front.lookup "params" = none)
    (exact : j.Exact) : m.record.defaulted "params" .null Json.free? = some j := by
  unfold Json.Record.defaulted
  rw [values, List.lookup_append, absent]
  rcases paramsMember_cases j with ⟨rfl, written⟩ | written
  · rw [written]
    rfl
  · rw [written, exact.2]
    exact Json.free?_eq exact

theorem requestOfJson?_request {r : Request} (exact : r.params.Exact) :
    requestOfJson? (toJson (.request r)) = some r := by
  have id : (record (.request r)).required "id" RequestId.ofJson? = some r.id :=
    RequestId.ofJson?_toJson r.id
  have method : (record (.request r)).required "method" Json.str? = some r.method := rfl
  have params := defaulted_params (m := .request r)
    [("jsonrpc", .str "2.0"), ("id", r.id.toJson), ("method", .str r.method)] rfl rfl exact
  unfold requestOfJson?
  rw [ofJson?_toJson]
  simp [id, method, params]

/-- What has no number is no request and no response. -/
theorem notificationOfJson?_notification {n : Notification} (exact : n.params.Exact) :
    notificationOfJson? (toJson (.notification n)) = some n := by
  have method : (record (.notification n)).required "method" Json.str? = some n.method := rfl
  have params := defaulted_params (m := .notification n)
    [("jsonrpc", .str "2.0"), ("method", .str n.method)] rfl rfl exact
  unfold notificationOfJson?
  rw [ofJson?_toJson]
  simp [method, params]

theorem responseOfJson?_response {r : Response} (result : ∀ j ∈ r.result, j.Exact)
    (data : ∀ e ∈ r.error, ∀ j ∈ e.data, j.Exact) : responseOfJson? (toJson (.response r)) =
      some { r with result := Json.present r.result, error := r.error.map ResponseError.arrived } := by
  obtain ⟨id, result?, error?⟩ := r
  let whole : Json.Record := record (.response ⟨id, result?, error?⟩)
  have number : whole.required "id" RequestId.ofJson? = some id := RequestId.ofJson?_toJson id
  have results : whole.optional "result" Json.free? = some (Json.present result?) := by
    refine Json.Record.optional_free ?_ rfl result
    cases result? with
    | none => cases error? <;> rfl
    | some j => exact congrArg some (result j rfl).2
  have errors : whole.optional "error" ResponseError.ofJson? = some (error?.map ResponseError.arrived) := by
    have there : whole.values.lookup "error" = error?.map ResponseError.toJson := by
      cases result? <;> cases error? <;> rfl
    cases error? with
    | none => exact Json.Record.optional_none there rfl
    | some e =>
      rw [Json.Record.optional_some there (by rintro ⟨⟩), ResponseError.ofJson?_toJson (data e rfl)]
      rfl
  unfold responseOfJson?
  rw [ofJson?_toJson]
  change ((whole.required "id" RequestId.ofJson?).bind fun _ => _) = _
  rw [number, results, errors]
  rfl

/-- The free-form parts are values as they are kept. -/
def Exact (m : Message) : Prop := ∀ j ∈ m.parts, j.Exact

theorem Exact.response {r : Response} (h : Exact (.response r)) :
    (∀ j ∈ r.result, j.Exact) ∧ ∀ e ∈ r.error, ∀ j ∈ e.data, j.Exact := by
  constructor
  · intro j there
    apply h
    rw [Option.mem_def] at there
    simp [parts, there]
  · intro e given j there
    apply h
    rw [Option.mem_def] at given there
    simp [parts, given, there]

/-- A message is read as what it was written as: the members that each kind has, and lacks, tell it. -/
theorem ofJson?_eq {m : Message} (exact : m.Exact) : ofJson? m.toJson = some m.arrived := by
  unfold ofJson?
  cases m with
  | request r =>
    rw [requestOfJson?_request (exact r.params (by simp [parts]))]
    rfl
  | response r =>
    have nameless : (record (.response r)).required "method" Json.str? = none := by
      rcases r with ⟨id, _ | j, _ | e⟩ <;> rfl
    have other : requestOfJson? (toJson (.response r)) = none := by
      unfold requestOfJson?
      rw [ofJson?_toJson]
      simp [nameless]
    rw [other, responseOfJson?_response exact.response.1 exact.response.2]
    rfl
  | notification n =>
    have anonymous : (record (.notification n)).required "id" RequestId.ofJson? = none := by
      have absent : (paramsMember n.params).lookup "id" = none :=
        lookup_paramsMember (by decide) n.params
      change ((paramsMember n.params).lookup "id").bind RequestId.ofJson? = none
      rw [absent]
      rfl
    have other : requestOfJson? (toJson (.notification n)) = none := by
      unfold requestOfJson?
      rw [ofJson?_toJson]
      simp [anonymous]
    have another : responseOfJson? (toJson (.notification n)) = none := by
      unfold responseOfJson?
      rw [ofJson?_toJson]
      simp [anonymous]
    rw [other, another, notificationOfJson?_notification (exact n.params (by simp [parts]))]
    rfl

/-! Their bodies. -/

theorem integral_id (id : RequestId) : id.toJson.Integral := by
  cases id with
  | text s => trivial
  | number n =>
    have low := n.le_toInt
    have high := n.toInt_lt
    change -0x8000000000000000 ≤ n.toInt ∧ n.toInt ≤ 0xffffffffffffffff
    omega

theorem integral_code (code : Int32) : (Json.int code.toInt).Integral := integral_id (.number code)

theorem integral_paramsMember {j : Json} (exact : j.Exact) : Json.IntegralMembers (paramsMember j) := by
  rcases paramsMember_cases j with ⟨-, written⟩ | written
  · simp [written, Json.IntegralMembers]
  · simp [written, Json.IntegralMembers, exact.2, exact.1]

theorem integral_error {e : ResponseError} (exact : ∀ j ∈ e.data, j.Exact) : e.toJson.Integral := by
  obtain ⟨code, message, data⟩ := e
  cases data with
  | none => exact ⟨integral_code code, trivial, trivial⟩
  | some j =>
    have kept := exact j rfl
    refine ⟨integral_code code, trivial, ?_, trivial⟩
    exact kept.2.symm ▸ kept.1

theorem integral_toJson {m : Message} (exact : m.Exact) : m.toJson.Integral := by
  constructor
  · trivial
  cases m with
  | request r => exact ⟨integral_id r.id, trivial, integral_paramsMember (exact r.params (by simp [parts]))⟩
  | notification n => exact ⟨trivial, integral_paramsMember (exact n.params (by simp [parts]))⟩
  | response r =>
    obtain ⟨result, data⟩ := exact.response
    refine ⟨integral_id r.id, Json.integralMembers_iff.mpr ?_⟩
    rintro entry there
    rcases List.mem_append.mp there with there | there
    · obtain ⟨j, given, rfl⟩ := Option.map_eq_some_iff.mp (Option.mem_toList.mp there)
      have kept := result j given
      exact kept.2.symm ▸ kept.1
    · obtain ⟨e, given, rfl⟩ := Option.map_eq_some_iff.mp (Option.mem_toList.mp there)
      exact integral_error (data e given)

theorem ofBody?_body {m : Message} (exact : m.Exact) (room : m.toJson.depth < Json.depthLimit) :
    ofBody? m.body = some m.arrived := by
  unfold ofBody? body Json.ofOctets? Utf8.ofString
  rw [Utf8.decode_encode, Option.bind_some, Json.ofChars?_compact (integral_toJson exact) room]
  exact ofJson?_eq exact

/-- Messages that are written one after the other are read as they were, each of its own kind: only a null
result, and null data of an error, are as good as none. Nothing is left over. -/
theorem drain_encoded (ms : List Message) (exact : ∀ m ∈ ms, m.Exact)
    (room : ∀ m ∈ ms, m.toJson.depth < Json.depthLimit)
    (fits : ∀ m ∈ ms, m.body.length ≤ Frame.lengthLimit) :
    (Decoder.empty.push (ms.flatMap fun m => Frame.encode m.body)).drain =
      ⟨ms.map arrived, none, .empty⟩ := by
  induction ms with
  | nil => exact Decoder.drain_empty
  | cons m ms ih =>
    have whole := ofBody?_body (exact m (by simp)) (room m (by simp))
    have rest := ih (fun m there => exact m (List.mem_cons_of_mem _ there))
      (fun m there => room m (List.mem_cons_of_mem _ there))
      (fun m there => fits m (List.mem_cons_of_mem _ there))
    have frame := Frame.Written.octets_ofBody m.body (fits m (by simp))
    have one : ofBody? (Frame.Written.ofBody m.body (fits m (by simp))).body = some m.arrived := whole
    rw [List.flatMap_cons, ← frame, Decoder.drain_written, rest, one]
    rfl

/-- One of each kind: a request under a text, a response with nulls, and a notification without
parameters. -/
def oneOfEach : List Message :=
  [.request ⟨.text "1", "open", .obj [("depth", .arr [.int (-1), .obj []])]⟩,
    .response ⟨.number (-7), some .null, some ⟨-32603, "\u00e9\n", some .null⟩⟩,
    .notification ⟨"exit", .null⟩]

theorem drain_oneOfEach :
    (Decoder.empty.push (oneOfEach.flatMap fun m => Frame.encode m.body)).drain =
      ⟨oneOfEach.map arrived, none, .empty⟩ := by
  apply drain_encoded
  · intro m there j inside
    simp only [oneOfEach, List.mem_cons, List.not_mem_nil, or_false] at there
    rcases there with rfl | rfl | rfl
    · obtain rfl := List.mem_singleton.mp inside
      refine ⟨?_, rfl⟩
      simp [Json.Integral, Json.IntegralMembers, Json.IntegralItems, Json.Fits, Json.wordMax]
    · obtain rfl : j = .null := by simpa [parts] using inside
      exact ⟨trivial, rfl⟩
    · obtain rfl := List.mem_singleton.mp inside
      exact ⟨trivial, rfl⟩
  · decide
  · decide

end Message

end LanguageHost
