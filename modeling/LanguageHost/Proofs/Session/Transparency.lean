import LanguageHost.Proofs.Protocol.Fields
import LanguageHost.Proofs.Session.Freshness
import LanguageHost.Proofs.Session.Recency

/-!
What the cache gives back. An answer with symbols, links or hints is kept as it is written, and whoever asks
again while it is there gets the same value, without a word to the server. The key of a query tells all that is
asked: the text of a range is four numbers with marks between, and no digit is a mark. So what is served was
always put in by a call with the same query.
-/
namespace LanguageHost

/-- The queries of a document that are answered with a list, or with null. -/
inductive CachedQuery.Listing : CachedQuery → Prop
  | symbols (uri : String) : Listing (symbols uri)
  | links (uri : String) : Listing (links uri)
  | hints (uri : String) (range : TextRange) : Listing (hints uri range)

namespace CachedQuery.Listing
variable {q : CachedQuery}

theorem keeps (h : q.Listing) (fuel : Nat) : Shape.Keeps q.type.shape fuel 0 q.type.shape := by
  cases h with
  | symbols uri =>
    refine Shape.keeps_nullable (Shape.keeps_choice ⟨?_, ?_⟩ ?_)
    · exact Shape.keeps_list Shape.keeps_symbolInformation
    · exact Shape.keeps_list Shape.keeps_documentSymbol
    · exact List.pairwise_pair.mpr Shape.symbolInformation_apart
  | links uri => exact Shape.keeps_nullable (Shape.keeps_list Shape.keeps_documentLink)
  | hints uri range => exact Shape.keeps_nullable (Shape.keeps_list Shape.keeps_inlayHint)

theorem result (h : q.Listing) : q.query.result = q.type.shape := by
  cases h <;> rfl

end CachedQuery.Listing

theorem ResponseCache.find?_set (c : ResponseCache) (key : CacheKey) (type : ValueType) (value : Json) :
    (c.set key type value).find? key = some ⟨type.name, value.canonical⟩ := by
  simp [set, find?]

theorem Client.understand_value {method : String} {shape : Shape} {r : Response} {v : Typed}
    (succeeded : r.error = none) (decoded : shape.value? (r.result.getD .null) = some v) :
    understand method shape r = .ok v.encode := by
  simp only [understand, succeeded, shape.read?_eq, decoded, Option.map_some]

namespace ClientCall
variable {l : Link} {q : CachedQuery}

/-- A query whose answer is kept ends with it at once, and nothing but the order of the cache changes. -/
theorem step_served (now : Nat) {j : Json} (hit : (l.client.cache.get q.key q.type).1 = some j) :
    step now l (.lookUp q .fresh) =
      ({ l with client := { l.client with cache := (l.client.cache.get q.key q.type).2 } },
        .done (.answered (.ok j))) := by
  rcases got : l.client.cache.get q.key q.type with ⟨found, cache⟩
  rw [got] at hit
  cases hit
  simp only [step, Link.onClient, Client.lookUp, got]
  rfl

end ClientCall

namespace Session

/-- A query for symbols, links or hints whose response decodes returns its value and keeps it. From then on,
as long as what was kept is there, each further query of the same kind returns that value in its first step.
It sends nothing and changes nothing but the order of the cache, so that what is kept stays. The numbers of
the result are such as JSON can write, and the URLs in its value are parsed to themselves. -/
theorem served_as_first_answered {s : Session} {q : CachedQuery} (listing : q.Listing) {i : Nat}
    {st : AskStage} (call : s.calls i = some (.lookUp q (.asking st))) {c : Client} {r : Response}
    (answered : s.link.client.exchange q.query s.now st = (c, .done (.response r)))
    (succeeded : r.error = none) (finite : (r.result.getD .null).IsFinite) {v : Typed}
    (decoded : q.type.shape.value? (r.result.getD .null) = some v) (normal : v.Normal) :
    let first := s.next (.turn i)
    (ClientCall.step s.now s.link (.lookUp q (.asking st))).2 = .done (.answered (.ok v.encode)) ∧
      first.log = .kept i q v.encode :: .returned i (.response r) :: s.log ∧
      (∃ e, first.link.client.cache.find? q.key = some e ∧ q.type.shape.value? e.value = some v) ∧
      ∀ (moves : List Move) (k : Nat),
        let s' := first.run moves
        s'.calls k = some (.lookUp q .fresh) →
        s'.link.client.cache.find? q.key = first.link.client.cache.find? q.key →
        ClientCall.step s'.now s'.link (.lookUp q .fresh) =
            ({ s'.link with client :=
              { s'.link.client with cache := (s'.link.client.cache.get q.key q.type).2 } },
              .done (.answered (.ok v.encode))) ∧
          (s'.next (.turn k)).log = .served k q v.encode :: s'.log ∧
          ∀ key, (s'.next (.turn k)).link.client.cache.find? key = s'.link.client.cache.find? key := by
  intro first
  obtain ⟨meant, again⟩ := Shape.value?_encode listing.keeps finite normal decoded
  have result : c.outcome q.query (.response r) = .ok v.encode :=
    Client.understand_value succeeded (listing.result ▸ decoded)
  have stepped := ClientCall.step_kept answered result
  have turned : first = s.turned i (.lookUp q (.asking st)) := by
    simp only [first, next, call]
  have kept : first.link.client.cache.find? q.key = some ⟨q.type.name, v.encode⟩ := by
    simp only [turned, Session.turned, stepped, ResponseCache.find?_set, meant]
  refine ⟨by rw [stepped], ?_, ⟨_, kept, again⟩, ?_⟩
  · rw [turned, Session.turned, ClientCall.ofCall_kept i answered result]
    rfl
  · intro moves k s' call' still
    have hit : (s'.link.client.cache.get q.key q.type).1 = some v.encode := by
      rw [ResponseCache.get_found (still.trans kept) rfl, Shape.read?_eq, again]
      rfl
    have stepped' := ClientCall.step_served s'.now hit
    have turned' : s'.next (.turn k) = s'.turned k (.lookUp q .fresh) := by
      simp only [next, call']
    refine ⟨stepped', ?_, fun key => ?_⟩
    · rw [turned', Session.turned, ClientCall.ofCall_served k hit]
      rfl
    · simp only [turned', Session.turned, stepped']
      exact ResponseCache.find?_get _ _ _ key

/-! A document with one symbol, asked for twice. -/

def somePlace : Json := .obj [("line", .int 0), ("character", .int 0)]

def someRange : Json := .obj [("start", somePlace), ("end", somePlace)]

/-- A symbol as a server may write it. -/
def someSymbol : Json := .obj [("since", .int 1), ("name", .str "A"), ("kind", .int 5), ("tags", .null),
  ("location", .obj [("uri", .str "file:///a"), ("range", someRange)])]

def placeValue : Typed := .record [("line", some (.plain (.int 0))), ("character", some (.plain (.int 0)))]

def rangeValue : Typed := .record [("start", some placeValue), ("end", some placeValue)]

def symbolValue : Typed := .record [("name", some (.plain (.str "A"))), ("kind", some (.plain (.int 5))),
  ("tags", none), ("deprecated", none),
  ("location", some (.record [("uri", some (.url "file:///a")), ("range", some rangeValue)])),
  ("containerName", none)]

theorem normal_url : Url.normal? "file:///a" = some "file:///a" := by decide +kernel

section
open Shape Json

theorem value_range (fuel : Nat) (outer : Shape) : valueFrom fuel outer range someRange = some rangeValue := by
  have place : valueFrom fuel outer position somePlace = some placeValue := by
    simp [position, somePlace, placeValue, need, uint32, valueFrom, readFrom, valueFields, Record.field,
      Record.ofJson?, Record.occurrences, Record.required, List.lookup_cons, Json.int?]
  simp [range, someRange, rangeValue, need, valueFrom, valueFields, Record.field, Record.ofJson?,
    Record.occurrences, Record.required, List.lookup_cons, place]

theorem value_symbol (fuel : Nat) (outer : Shape) :
    valueFrom fuel outer symbolInformation someSymbol = some symbolValue := by
  simp [symbolInformation, Shape.location, int32, someSymbol, symbolValue, need, may, valueFrom, readFrom,
    valueFields, Record.field, Record.ofJson?, Record.occurrences, Record.required, Record.optional,
    List.lookup_cons, Json.int?, Json.str?, value_range, normal_url]

end

/-- The response to a query has come. -/
def answeredOnce : Session :=
  let s := start 0 "fake" ⟨⟨"/"⟩, [], none, 9⟩ (.ofScript .empty) none
  let client := { s.link.client with pending := [], arrived := [⟨.number 1, some (.arr [someSymbol]), none⟩] }
  { s with
    link := { s.link with client := client }
    calls := Function.update s.calls 0 (some (.lookUp (.symbols "file:///a") (.asking (.waiting 1 9))))
    tickets := 1 }

/-- The second query is served with the value that the first one returned. -/
theorem answeredOnce_serves :
    let q := CachedQuery.symbols "file:///a"
    let j := (Typed.just (.alternative 0 (.list [symbolValue]))).encode
    let s := answeredOnce.run [.turn 0, .begin (.lookUp q .fresh), .turn 1]
    s.log = [.served 1 q j, .kept 0 q j,
      .returned 0 (.response ⟨.number 1, some (.arr [someSymbol]), none⟩)] := by
  intro q j s
  have finite : (Json.arr [someSymbol]).IsFinite := by
    simp [someSymbol, someRange, somePlace, Json.IsFinite, Json.FiniteItems, Json.FiniteMembers]
  have decoded : q.type.shape.value? (.arr [someSymbol]) =
      some (.just (.alternative 0 (.list [symbolValue]))) := by
    simp [q, CachedQuery.symbols, CachedQuery.make, ValueType.symbols, Shape.value?, Shape.valueFrom,
      Shape.valueFirst, value_symbol]
  have normal : (Typed.just (.alternative 0 (.list [symbolValue]))).Normal := by
    intro u there
    have only : u = "file:///a" := by
      simpa [Typed.urls, Typed.urlsItems, Typed.urlsFields, symbolValue, rangeValue, placeValue] using there
    exact only ▸ normal_url
  obtain ⟨-, kept, -, again⟩ := served_as_first_answered (s := answeredOnce) (.symbols _) (i := 0) rfl
    (exchange_arrived rfl rfl) rfl finite decoded normal
  obtain ⟨-, served, -⟩ := again [.begin (.lookUp q .fresh)] 1 rfl rfl
  exact served.trans (congrArg (.served 1 q j :: ·) kept)

end Session

/-! The texts of ranges. -/

theorem toDigits_inj {m n : Nat} : Nat.toDigits 10 m = Nat.toDigits 10 n ↔ m = n := by
  constructor
  · intro same
    rw [← Nat.ofDigitChars_ten_toDigits (n := m), same, Nat.ofDigitChars_ten_toDigits]
  · rintro rfl
    rfl

theorem notMem_toDigits {mark : Char} (other : mark.isDigit = false) (n : Nat) : mark ∉ Nat.toDigits 10 n := by
  intro there
  have digit := Nat.isDigit_of_mem_toDigits (by decide) (by decide) there
  exact absurd (other.symm.trans digit) Bool.false_ne_true

namespace TextPosition
variable {p q : TextPosition}

theorem toList_text (p : TextPosition) :
    p.text.toList = Nat.toDigits 10 p.line.toNat ++ ':' :: Nat.toDigits 10 p.character.toNat := by
  simp [text, String.toList_append, Nat.toString_eq_repr, Nat.toList_repr]

theorem text_inj : p.text = q.text ↔ p = q := by
  constructor
  · intro same
    have chars := congrArg String.toList same
    rw [toList_text, toList_text,
      List.append_cons_inj_of_notMem (notMem_toDigits rfl _) (notMem_toDigits rfl _)] at chars
    obtain ⟨line, -, character⟩ := chars
    have line : p.line = q.line := UInt32.toNat_inj.mp (toDigits_inj.mp line)
    have character : p.character = q.character := UInt32.toNat_inj.mp (toDigits_inj.mp character)
    cases p
    cases q
    cases line
    cases character
    rfl
  · rintro rfl
    rfl

theorem dash_notMem_text (p : TextPosition) : '-' ∉ p.text.toList := by
  rw [toList_text]
  intro there
  rcases List.mem_append.mp there with line | rest
  · exact notMem_toDigits rfl _ line
  · rcases List.mem_cons.mp rest with colon | character
    · cases colon
    · exact notMem_toDigits rfl _ character

end TextPosition

namespace TextRange
variable {r s : TextRange}

theorem toList_text (r : TextRange) : r.text.toList = r.start.text.toList ++ '-' :: r.stop.text.toList := by
  simp [text, String.toList_append]

theorem text_inj : r.text = s.text ↔ r = s := by
  constructor
  · intro same
    have chars := congrArg String.toList same
    rw [toList_text, toList_text,
      List.append_cons_inj_of_notMem r.start.dash_notMem_text r.stop.dash_notMem_text] at chars
    obtain ⟨start, -, stop⟩ := chars
    have start : r.start = s.start := TextPosition.text_inj.mp (String.toList_inj.mp start)
    have stop : r.stop = s.stop := TextPosition.text_inj.mp (String.toList_inj.mp stop)
    cases r
    cases s
    cases start
    cases stop
    rfl
  · rintro rfl
    rfl

end TextRange

/-! The queries whose answers are kept. -/

/-- What is asked of a document. -/
inductive Question where
  | symbols (uri : String)
  | colors (uri : String)
  | links (uri : String)
  | hints (uri : String) (range : TextRange)
deriving DecidableEq

namespace Question

def query : Question → CachedQuery
  | symbols uri => .symbols uri
  | colors uri => .colors uri
  | links uri => .links uri
  | hints uri range => .hints uri range

theorem key_inj (a b : Question) : a.query.key = b.query.key ↔ a = b := by
  constructor
  · intro same
    -- the kind of the query is in the key, so that the range is compared for hints alone
    have document := congrArg CacheKey.document same
    have kind := congrArg CacheKey.kind same
    have detail := congrArg CacheKey.detail same
    cases a with
    | symbols uri =>
      cases b with
      | symbols uri' => exact congrArg symbols document
      | _ => cases kind
    | colors uri =>
      cases b with
      | colors uri' => exact congrArg colors document
      | _ => cases kind
    | links uri =>
      cases b with
      | links uri' => exact congrArg links document
      | _ => cases kind
    | hints uri range =>
      cases b with
      | hints uri' range' =>
        have text : range.text = range'.text := Option.some.inj detail
        rw [TextRange.text_inj.mp text, show uri = uri' from document]
      | _ => cases kind
  · rintro rfl
    rfl

end Question

/-! Runs in which every query is one of these. -/

namespace ClientCall

/-- The query of a call that looks for a kept answer. -/
def query? : ClientCall → Option CachedQuery
  | .lookUp q _ => some q
  | _ => none

/-- A call stays with its query. -/
theorem query?_rest {now : Nat} {l : Link} {call call' : ClientCall}
    (rest : (call.step now l).2.rest? call = some call') : call'.query? = call.query? := by
  cases call with
  | ask | lookUp | greet =>
    simp only [step, Link.onClient, Turn.rest?_lift] at rest
    obtain ⟨s', -, rfl⟩ := Option.map_eq_some_iff.mp rest
    rfl
  | shutDown =>
    simp only [step, Turn.rest?_lift] at rest
    obtain ⟨s', -, rfl⟩ := Option.map_eq_some_iff.mp rest
    rfl

end ClientCall

namespace Event

/-- The query whose answer went into the cache, or came from it. -/
def query? : Event → Option CachedQuery
  | .kept _ q _ | .served _ q _ => some q
  | _ => none

theorem IsAside.query? {e : Event} (h : e.IsAside) : e.query? = none := by
  cases e with
  | kept | served | reopened => cases h
  | _ => rfl

theorem query?_ofCache {k : Nat} {call : ClientCall} {turn : Turn ClientCall Outcome} {e : Event}
    (there : e ∈ ofCache k call turn) : e.query? = call.query? := by
  unfold ofCache at there
  split at there
  · cases List.mem_singleton.mp there
    rfl
  · cases List.mem_singleton.mp there
    rfl
  · cases there

/-- What is told of a step of a call is of no query but its own. -/
theorem query?_ofCall {now : Nat} {l : Link} {k : Nat} {call : ClientCall} {e : Event}
    (there : e ∈ ofCall now l k call) : e.query? = call.query? ∨ e.query? = none := by
  simp only [ofCall] at there
  rcases List.mem_append.mp there with cached | there
  · exact .inl (query?_ofCache cached)
  · right
    split at there
    · rcases List.mem_append.mp there with queued | there
      · exact (aside_queue _ _ _ e queued).query?
      · rcases List.mem_append.mp there with turned | queued
        · exact (aside_ofTurn _ _ e turned).query?
        · exact (aside_queue _ _ _ e queued).query?
    · exact (aside_queue _ _ _ e there).query?

theorem query?_ofAct {l : Link} {a : Link.Act} {e : Event} (there : e ∈ ofAct l a) : e.query? = none := by
  rcases List.mem_append.mp there with opened | queued
  · obtain ⟨uri, -, rfl⟩ := List.mem_map.mp opened
    rfl
  · exact (aside_queue _ _ _ e queued).query?

end Event

namespace Session
variable {s : Session}

/-- Whoever looks for a kept answer asks one of the questions. -/
def Move.Asks : Move → Prop
  | .begin call => ∀ q ∈ call.query?, ∃ a : Question, q = a.query
  | _ => True

/-- All calls ask questions, and answers to questions are all that is kept or served. -/
structure Questions (s : Session) : Prop where
  calls : ∀ k, ∀ call ∈ s.calls k, ∀ q ∈ call.query?, ∃ a : Question, q = a.query
  log : ∀ e ∈ s.log, ∀ q ∈ e.query?, ∃ a : Question, q = a.query

theorem Questions.next (h : s.Questions) {move : Move} (asks : move.Asks) : (s.next move).Questions := by
  cases move with
  | begin call =>
    simp only [Session.next]
    split
    · refine ⟨fun k call' there => ?_, h.log⟩
      dsimp only at there
      by_cases same : k = s.tickets
      · rw [same, Function.update_self] at there
        cases there
        exact asks
      · rw [Function.update_of_ne same] at there
        exact h.calls k call' there
    · exact h
  | turn k =>
    simp only [Session.next]
    split
    · exact h
    · next call began =>
      constructor
      · intro j call' there
        by_cases same : j = k
        · subst same
          simp only [turned, Function.update_self] at there
          rw [ClientCall.query?_rest there]
          exact h.calls j call began
        · simp only [turned, Function.update_of_ne same] at there
          exact h.calls j call' there
      · intro e there q own
        rcases List.mem_append.mp there with new | old
        · rcases Event.query?_ofCall new with same | none
          · exact h.calls k call began q (same ▸ own)
          · rw [none] at own
            cases own
        · exact h.log e old q own
  | act a =>
    refine ⟨h.calls, fun e there q own => ?_⟩
    rcases List.mem_append.mp there with new | old
    · rw [Event.query?_ofAct new] at own
      cases own
    · exact h.log e old q own
  | pass time => exact ⟨h.calls, h.log⟩

theorem Questions.run {moves : List Move} (h : s.Questions) (asks : ∀ move ∈ moves, move.Asks) :
    (s.run moves).Questions := by
  induction moves generalizing s with
  | nil => exact h
  | cons move moves ih =>
    exact ih (h.next (asks move List.mem_cons_self)) fun move there => asks move (List.mem_cons_of_mem _ there)

/-- What is served was put in by a call with the same query. -/
theorem Questions.served (h : s.Questions) (fresh : s.Fresh) {k : Nat} {q : CachedQuery} {j : Json}
    {older : List Event} (ends : (.served k q j :: older) <:+ s.log) :
    ∃ i j' r id newer prior, older = newer ++ .kept i q j' :: .returned i (.response r) :: prior ∧
      q.type.shape.read? j'.canonical = some j ∧
      Client.understand q.query.method q.query.result r = .ok j' ∧ r.id = .number id ∧
      .queued (some i) (q.query.request id) ∈ prior := by
  obtain ⟨e, ⟨i, q', j', r, id, newer, prior, entered⟩, -, reading⟩ := fresh.served _ _ ends
  have served : Event.served k q j ∈ s.log := ends.subset List.mem_cons_self
  have kept : Event.kept i q' j' ∈ s.log := by
    refine ends.subset (List.mem_cons_of_mem _ ?_)
    rw [entered.history]
    exact List.mem_append_right _ List.mem_cons_self
  obtain ⟨a, asked⟩ := h.log _ served q rfl
  obtain ⟨b, asked'⟩ := h.log _ kept q' rfl
  have same : b = a := (Question.key_inj b a).mp (by rw [← asked, ← asked', entered.ofKey])
  obtain rfl : q' = q := by rw [asked, asked', same]
  have value : e.value = j'.canonical := by rw [entered.entry]
  rw [value] at reading
  exact ⟨i, j', r, id, newer, prior, entered.history, reading, entered.understood, entered.own, entered.queued⟩

theorem questions_start (now : Nat) (language : String) (config : ClientConfig) (server : Peer)
    (process : Option Invocation) : (start now language config server process).Questions := by
  refine ⟨fun k call there => ?_, fun e there => ?_⟩
  · cases there
  · cases there

/-- Two queries have the same key just when they are of the same kind, on the same document and, for hints,
on the same range. So in any run an answer from the cache is one to the very query that is asked: it was put
in by a call that had queued the request of that query and returned from the response to it. -/
theorem answers_are_to_the_same_query :
    (∀ a b : Question, a.query.key = b.query.key ↔ a = b) ∧
      ∀ (now : Nat) (language : String) (config : ClientConfig) (server : Peer) (process : Option Invocation)
        (moves : List Move), (∀ move ∈ moves, move.Asks) →
        ∀ k q j older, (.served k q j :: older) <:+ ((start now language config server process).run moves).log →
          ∃ i j' r id newer prior, older = newer ++ .kept i q j' :: .returned i (.response r) :: prior ∧
            q.type.shape.read? j'.canonical = some j ∧
            Client.understand q.query.method q.query.result r = .ok j' ∧ r.id = .number id ∧
            .queued (some i) (q.query.request id) ∈ prior := by
  refine ⟨Question.key_inj, ?_⟩
  intro now language config server process moves asks k q j older ends
  have questions := (questions_start now language config server process).run asks
  exact questions.served (Reached.fresh ⟨_, _, _, _, _, _, rfl⟩) ends

/-! Hints that are asked for twice, where the server has none. -/

def hinted : Question := .hints "file:///a" ⟨⟨1, 12⟩, ⟨3, 4⟩⟩

/-- The request has been answered, and the call has yet to take the response. -/
def hintedMoves : List Move :=
  .begin (.lookUp hinted.query .fresh) :: List.replicate 5 (.turn 0) ++
    [.act (.emit (Peer.wire (.number 1) [("result", .null)])), .act (.hand .reader), .act (.hand .reader)]

def hintedAgain : List Move := hintedMoves ++ [.turn 0, .begin (.lookUp hinted.query .fresh), .turn 1]

theorem hintedAgain_log : ∃ older,
    ((start 0 "fake" ⟨⟨"/"⟩, [], none, 9⟩ (.ofScript .empty) none).run hintedAgain).log =
      .served 1 hinted.query .null :: older := by
  let s := (start 0 "fake" ⟨⟨"/"⟩, [], none, 9⟩ (.ofScript .empty) none).run hintedMoves
  have arrived : s.link.client.arrived = [⟨.number 1, none, none⟩] := arrived_null (by decide +kernel)
  have reading : hinted.query.type.shape.read? .null = some .null := by
    simp [hinted, Question.query, CachedQuery.hints, CachedQuery.make, ValueType.hints, Shape.read?,
      Shape.readFrom]
  have understood : Client.understand hinted.query.query.method hinted.query.query.result
      ⟨.number 1, none, none⟩ = .ok .null := by
    simp only [Client.understand, Option.getD_none]
    rw [show hinted.query.query.result.read? .null = some .null from reading]
  have calls : s.calls 0 = some (.lookUp hinted.query (.asking (.waiting 1 9))) := rfl
  have log := log_kept_served calls rfl (exchange_arrived arrived rfl) understood reading
  exact ⟨_, (congrArg Session.log List.foldl_append).trans log⟩

/-- The second call is served with the answer to the first, and with that of no other range. -/
theorem hintedAgain_served :
    (Question.hints "file:///a" ⟨⟨11, 2⟩, ⟨3, 4⟩⟩).query.key ≠ hinted.query.key ∧
      ∃ i j r older, (.kept i hinted.query j :: .returned i (.response r) :: older) <:+
        ((start 0 "fake" ⟨⟨"/"⟩, [], none, 9⟩ (.ofScript .empty) none).run hintedAgain).log := by
  obtain ⟨distinct, served⟩ := answers_are_to_the_same_query
  obtain ⟨older, log⟩ := hintedAgain_log
  have asks : ∀ move ∈ hintedAgain, move.Asks := by
    intro move there
    cases move with
    | begin call =>
      obtain rfl : call = .lookUp hinted.query .fresh := by simpa [hintedAgain, hintedMoves] using there
      intro q own
      cases own
      exact ⟨hinted, rfl⟩
    | _ => trivial
  obtain ⟨i, j, r, id, newer, prior, split, -⟩ :=
    served 0 "fake" ⟨⟨"/"⟩, [], none, 9⟩ (.ofScript .empty) none hintedAgain asks 1 hinted.query .null older
      (log ▸ List.suffix_refl _)
  refine ⟨fun same => ?_, i, j, r, prior, .served 1 hinted.query .null :: newer, ?_⟩
  · exact absurd ((distinct _ _).mp same) (by decide)
  · rw [log, split]
    rfl

end Session

end LanguageHost
