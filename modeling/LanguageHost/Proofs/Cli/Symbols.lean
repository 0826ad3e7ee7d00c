import Mathlib.Algebra.Group.Nat.Defs
import LanguageHost.Cli.Commands
import LanguageHost.Proofs.Fleet.Links
import LanguageHost.Proofs.Fleet.Tasks
import LanguageHost.Proofs.Json.Compact
import LanguageHost.Proofs.Protocol.Fields
import LanguageHost.Proofs.Session.Caching

/-!
The listing of symbols. Whatever symbols a response holds, in one list or inside each other as deep as they
may be, each has its text, ahead of those of the symbols inside it. The number of its line is counted in 32
bits, so that it is not that of the line for a symbol in the last line of all.
-/
namespace LanguageHost

/-- A symbol: its name and kind, the line that it starts in, counted from zero, and the symbols inside it. -/
inductive Symbol where
  | node (name : String) (kind : Int) (line : Nat) (inner : List Symbol)

namespace Symbol

def name : Symbol → String
  | .node name _ _ _ => name

def kind : Symbol → Int
  | .node _ kind _ _ => kind

def line : Symbol → Nat
  | .node _ _ line _ => line

mutual

/-- A symbol and all inside it, each ahead of those inside it, and how deep it is inside. -/
def preorder (depth : Nat) : Symbol → List (Nat × Symbol)
  | .node name kind line inner => (depth, .node name kind line inner) :: preorderAll (depth + 1) inner

def preorderAll (depth : Nat) : List Symbol → List (Nat × Symbol)
  | [] => []
  | s :: rest => preorder depth s ++ preorderAll depth rest

end

/-- What is shown of a symbol, two spaces further in for each level, with a number for its line. -/
def text (depth number : Nat) (s : Symbol) : String :=
  String.ofList (List.replicate (2 * depth) ' ') ++ Cli.SymbolTree.kindName s.kind ++ " " ++ s.name ++
    " (line " ++ toString number ++ ")"

/-- People count lines from one. -/
def lineNumber (s : Symbol) : Nat := s.line + 1

/-- What is shown for it, counted in 32 bits. -/
def shownNumber (s : Symbol) : Nat := s.lineNumber % 2 ^ 32

def shown (number : Symbol → Nat) (x : Nat × Symbol) : String := x.2.text x.1 (number x.2)

end Symbol

namespace Typed

/-- The line that a range starts in. -/
def startLine? (range : Typed) : Option Nat :=
  match (range.field? "start").bind (field? "line") with
  | some (.plain (.int n)) => some n.toNat
  | _ => none

/-- The values of the symbols inside one. -/
def inside (v : Typed) : List Typed :=
  match v.field? "children" with
  | some (.list vs) => vs
  | _ => []

mutual

/-- The symbol that a value describes: one at a location, or one with a range and others inside it. -/
inductive IsSymbol : Typed → Symbol → Prop where
  | flat {v location range : Typed} {name : String} {kind : Int} {line : Nat}
      (named : v.field? "name" = some (.plain (.str name))) (kinded : v.field? "kind" = some (.plain (.int kind)))
      (located : v.field? "location" = some location) (ranged : location.field? "range" = some range)
      (starts : range.startLine? = some line) : IsSymbol v (.node name kind line [])
  | nested {v range : Typed} {name : String} {kind : Int} {line : Nat} {inner : List Symbol}
      (named : v.field? "name" = some (.plain (.str name))) (kinded : v.field? "kind" = some (.plain (.int kind)))
      (unlocated : v.field? "location" = none) (ranged : v.field? "range" = some range)
      (starts : range.startLine? = some line) (holds : AreSymbols v.inside inner) : IsSymbol v (.node name kind line inner)

inductive AreSymbols : List Typed → List Symbol → Prop where
  | nil : AreSymbols [] []
  | cons {v : Typed} {vs : List Typed} {s : Symbol} {ss : List Symbol} (first : IsSymbol v s)
      (rest : AreSymbols vs ss) : AreSymbols (v :: vs) (s :: ss)

end

/-- What is shown of an answer, with a number for each symbol: that there is none, or all its symbols, in one list
or inside each other. -/
inductive Listed (number : Symbol → Nat) : Typed → List String → Prop where
  | nothing : Listed number .null ["No symbols"]
  | symbols {place : Nat} {vs : List Typed} {forest : List Symbol} (described : AreSymbols vs forest) :
      Listed number (.just (.alternative place (.list vs)))
        ((Symbol.preorderAll 0 forest).map (Symbol.shown number))

/-- The symbols that an answer tells of, at any depth. -/
inductive Tells : Typed → Symbol → Prop where
  | symbol {place : Nat} {vs : List Typed} {forest : List Symbol} {depth : Nat} {s : Symbol}
      (described : AreSymbols vs forest) (there : (depth, s) ∈ Symbol.preorderAll 0 forest) :
      Tells (.just (.alternative place (.list vs))) s

mutual

/-- A value describes one symbol at most. -/
theorem IsSymbol.unique {v : Typed} {s s' : Symbol} (h : v.IsSymbol s) (h' : v.IsSymbol s') : s = s' := by
  cases h with
  | flat named kinded located ranged starts =>
    cases h' with
    | flat named' kinded' located' ranged' starts' =>
      cases named.symm.trans named'
      cases kinded.symm.trans kinded'
      cases located.symm.trans located'
      cases ranged.symm.trans ranged'
      cases starts.symm.trans starts'
      rfl
    | nested named' kinded' unlocated' ranged' starts' holds' => cases located.symm.trans unlocated'
  | nested named kinded unlocated ranged starts holds =>
    cases h' with
    | flat named' kinded' located' ranged' starts' => cases unlocated.symm.trans located'
    | nested named' kinded' unlocated' ranged' starts' holds' =>
      cases named.symm.trans named'
      cases kinded.symm.trans kinded'
      cases ranged.symm.trans ranged'
      cases starts.symm.trans starts'
      rw [holds.unique holds']

theorem AreSymbols.unique {vs : List Typed} {ss ss' : List Symbol} (h : AreSymbols vs ss)
    (h' : AreSymbols vs ss') : ss = ss' := by
  cases h with
  | nil =>
    cases h'
    rfl
  | cons first rest =>
    obtain ⟨⟩ | ⟨first', rest'⟩ := h'
    rw [first.unique first', rest.unique rest']

end

theorem Listed.eq_shown {number : Symbol → Nat} {place : Nat} {vs : List Typed} {lines : List String}
    {forest : List Symbol} (h : (just (.alternative place (.list vs))).Listed number lines)
    (described : AreSymbols vs forest) : lines = (Symbol.preorderAll 0 forest).map (Symbol.shown number) := by
  cases h with
  | symbols described' => rw [described'.unique described]

end Typed

namespace Shape

variable {outer : Shape} {fuel : Nat}

/-- Where a range that was read starts. -/
theorem startLine_of_read {j : Json} {v : Typed} (read : valueFrom fuel outer range j = some v) :
    ∃ n, v.startLine? = some n ∧ n < 2 ^ 32 ∧ Cli.SymbolTree.startLine (some v.encode) = .ofNat n := by
  have ends : Fielded outer fuel _ v := fielded (by decide) read
  obtain ⟨start, i, there, read⟩ := ends.required "start" position (by simp [need])
  have place : Fielded outer fuel _ start := fielded (by decide) read
  obtain ⟨line, i, there', read⟩ := place.required "line" uint32 (by simp [need])
  obtain ⟨n, rfl, low, high⟩ := int_of_read read
  refine ⟨n.toNat, ?_, by omega, ?_⟩
  · simp only [Typed.startLine?, there, Option.bind_some, there']
  · simp only [Cli.SymbolTree.startLine, Option.bind_some, ends.written, there, Option.map_some,
      Option.getD_some, Cli.SymbolTree.intOf, place.written, there', Typed.encode]

end Shape

namespace Cli.SymbolTree

theorem ofMembers_eq (members : List (String × Json)) :
    ofMembers members = ((members.lookup "children").map ofValue).getD [] := by
  induction members with
  | nil => rw [ofMembers]; rfl
  | cons entry rest ih =>
    obtain ⟨key, j⟩ := entry
    rw [ofMembers, ih, List.lookup_cons]
    by_cases same : key = "children"
    · subst same
      rfl
    · rw [if_neg same, beq_eq_false_iff_ne.mpr (Ne.symm same)]

theorem ofItems_eq (items : List Json) : ofItems items = items.map ofJson := by
  induction items with
  | nil => rw [ofItems]; rfl
  | cons j rest ih => rw [ofItems, ih, List.map_cons]

/-- A symbol of an object, by its fields. -/
theorem ofJson_eq {j : Json} (record : ∃ members, j = .obj members) :
    ofJson j = .node (intOf "kind" j) (textOf "name" j)
      (startLine (match j.get? "location" with
        | some l => l.get? "range"
        | none => j.get? "range"))
      (((j.get? "children").map ofValue).getD []) := by
  obtain ⟨members, rfl⟩ := record
  rw [ofJson, ofMembers_eq]
  rfl

theorem toNat_succ {n : Nat} : ((UInt32.ofNat n) + 1).toNat = (n + 1) % 2 ^ 32 := by
  rw [UInt32.toNat_add, UInt32.toNat_ofNat']
  simp

end Cli.SymbolTree

/-! Symbols that were read. -/

/-- A value that describes a symbol, and is shown as that symbol. -/
structure Typed.Shows (v : Typed) (s : Symbol) : Prop where
  described : v.IsSymbol s
  small : ∀ depth, ∀ x ∈ s.preorder depth, x.2.line < 2 ^ 32
  lines : ∀ depth, Cli.SymbolTree.lines depth (.ofJson v.encode) =
    (s.preorder depth).map (Symbol.shown Symbol.shownNumber)

structure Typed.ShowsAll (vs : List Typed) (ss : List Symbol) : Prop where
  described : AreSymbols vs ss
  small : ∀ depth, ∀ x ∈ Symbol.preorderAll depth ss, x.2.line < 2 ^ 32
  lines : ∀ depth, Cli.SymbolTree.linesOf depth (Cli.SymbolTree.ofValue (Typed.list vs).encode) =
    (Symbol.preorderAll depth ss).map (Symbol.shown Symbol.shownNumber)

namespace Shape

open Cli.SymbolTree

variable {outer : Shape} {fuel : Nat}

theorem ofValue_list (vs : List Typed) : ofValue (Typed.list vs).encode = vs.map fun v => ofJson v.encode := by
  have written : (Typed.list vs).encode = .arr (vs.map Typed.encode) :=
    congrArg Json.arr (Typed.encodeItems_eq vs)
  rw [written, ofValue, ofItems_eq, List.map_map]
  rfl

theorem showsAll (vs : List Typed) (each : ∀ v ∈ vs, ∃ s, v.Shows s) : ∃ ss, Typed.ShowsAll vs ss := by
  induction vs with
  | nil =>
    refine ⟨[], .nil, fun _ _ there => ?_, fun _ => ?_⟩
    · rw [Symbol.preorderAll] at there
      cases there
    · rw [ofValue_list, List.map_nil, linesOf, Symbol.preorderAll, List.map_nil]
  | cons v vs ih =>
    obtain ⟨s, first⟩ := each v List.mem_cons_self
    obtain ⟨ss, rest⟩ := ih fun w later => each w (List.mem_cons_of_mem _ later)
    refine ⟨s :: ss, .cons first.described rest.described, fun depth x there => ?_, fun depth => ?_⟩
    · rw [Symbol.preorderAll] at there
      rcases List.mem_append.mp there with here | later
      · exact first.small depth x here
      · exact rest.small depth x later
    · have later := rest.lines depth
      rw [ofValue_list] at later ⊢
      rw [List.map_cons, linesOf, Symbol.preorderAll, List.map_append, first.lines, later]

/-- A symbol is shown by its fields, if those inside it are. -/
theorem shows_of_fields {v range : Typed} {name : String} {kind : Int} {line : Nat} {inner : List Symbol}
    (record : ∃ members, v.encode = .obj members)
    (written : ∀ name, v.encode.get? name = (v.field? name).map Typed.encode)
    (described : v.IsSymbol (.node name kind line inner))
    (named : v.field? "name" = some (.plain (.str name))) (kinded : v.field? "kind" = some (.plain (.int kind)))
    (place : (match v.encode.get? "location" with
      | some l => l.get? "range"
      | none => v.encode.get? "range") = some range.encode)
    (small : line < 2 ^ 32) (starts : startLine (some range.encode) = .ofNat line)
    (all : Typed.ShowsAll v.inside inner)
    (children : ((v.encode.get? "children").map ofValue).getD [] = ofValue (Typed.list v.inside).encode) :
    v.Shows (.node name kind line inner) := by
  refine ⟨described, fun depth x there => ?_, fun depth => ?_⟩
  · rw [Symbol.preorder] at there
    rcases List.mem_cons.mp there with rfl | within
    · exact small
    · exact all.small (depth + 1) x within
  · have here : intOf "kind" v.encode = kind ∧ textOf "name" v.encode = name := by
      simp [intOf, textOf, written, named, kinded, Typed.encode, Json.str?]
    rw [ofJson_eq record, place, starts, here.1, here.2, children, lines, all.lines, Symbol.preorder,
      List.map_cons]
    refine congrArg (· :: _) ?_
    rw [Cli.SymbolTree.line, toNat_succ]
    rfl

/-- One of many symbols in a list. -/
theorem shows_symbolInformation {j : Json} {v : Typed} (read : valueFrom fuel outer symbolInformation j = some v) :
    ∃ s, v.Shows s := by
  have fields : Fielded outer fuel _ v := fielded (by decide) read
  obtain ⟨name, i, named, read⟩ := fields.required "name" .text (by simp [need])
  obtain ⟨name, rfl⟩ := text_of_read read
  obtain ⟨kind, i, kinded, read⟩ := fields.required "kind" int32 (by simp [need])
  obtain ⟨kind, rfl, -⟩ := int_of_read read
  obtain ⟨place, i, located, read⟩ := fields.required "location" location (by simp [need])
  have placed : Fielded outer fuel _ place := fielded (by decide) read
  obtain ⟨ends, i, ranged, read⟩ := placed.required "range" range (by simp [need])
  obtain ⟨line, starts, small, start⟩ := startLine_of_read read
  have childless : v.field? "children" = none := fields.unknown (by decide)
  have empty : v.inside = [] := by rw [Typed.inside, childless]
  obtain ⟨ss, all⟩ := showsAll v.inside (by rw [empty]; nofun)
  have none_inside : ss = [] := by
    have described := all.described
    rw [empty] at described
    cases described
    rfl
  subst none_inside
  refine ⟨.node name kind line [], shows_of_fields fields.record fields.written
    (.flat named kinded located ranged starts) named kinded ?_ small start all ?_⟩
  · simp only [fields.written, located, Option.map_some, placed.written, ranged]
  · rw [fields.written, childless, empty, ofValue_list]
    rfl

/-- A symbol with others inside it, if those are shown. -/
theorem shows_around {body : Shape} (same : documentSymbol = .loop body)
    (inner : ∀ i w, valueFrom fuel body .again i = some w → ∃ s, w.Shows s) {j : Json} {v : Typed}
    (read : valueFrom fuel body body j = some v) : ∃ s, v.Shows s := by
  cases same
  have fields : Fielded _ fuel _ v := fielded (by decide) read
  obtain ⟨name, i, named, read⟩ := fields.required "name" .text (by simp [need])
  obtain ⟨name, rfl⟩ := text_of_read read
  obtain ⟨kind, i, kinded, read⟩ := fields.required "kind" int32 (by simp [need])
  obtain ⟨kind, rfl, -⟩ := int_of_read read
  obtain ⟨ends, i, ranged, read⟩ := fields.required "range" range (by simp [need])
  obtain ⟨line, starts, small, start⟩ := startLine_of_read read
  have unlocated : v.field? "location" = none := fields.unknown (by decide)
  have held : (∀ w ∈ v.inside, ∃ s, w.Shows s) ∧
      ((v.encode.get? "children").map ofValue).getD [] = ofValue (Typed.list v.inside).encode := by
    rcases fields.optional "children" (.list .again) (by simp [may]) with
      absent | ⟨children, i, there, read⟩
    · have empty : v.inside = [] := by rw [Typed.inside, absent]
      refine ⟨by rw [empty]; nofun, ?_⟩
      rw [fields.written, absent, empty, ofValue_list]
      rfl
    · obtain ⟨vs, rfl, each⟩ := list_of_read read
      have full : v.inside = vs := by rw [Typed.inside, there]
      refine ⟨fun w within => ?_, ?_⟩
      · obtain ⟨i, here⟩ := each w (full ▸ within)
        exact inner i w here
      · rw [fields.written, there, full]
        rfl
  obtain ⟨ss, all⟩ := showsAll _ held.1
  refine ⟨.node name kind line ss, shows_of_fields fields.record fields.written
    (.nested named kinded unlocated ranged starts all.described) named kinded ?_ small start all held.2⟩
  simp only [fields.written, unlocated, Option.map_none, ranged, Option.map_some]

/-- A symbol with others inside it, as deep as the turns of the loop allow. -/
theorem shows_documentSymbol {body : Shape} (same : documentSymbol = .loop body) {j : Json} {v : Typed}
    (read : valueFrom fuel body body j = some v) : ∃ s, v.Shows s := by
  induction fuel generalizing j v with
  | zero =>
    refine shows_around same (fun i w read => ?_) read
    rw [valueFrom] at read
    cases read
  | succ fuel ih =>
    refine shows_around same (fun i w read => ?_) read
    rw [valueFrom] at read
    exact ih read

end Shape

/-! The listing. -/

namespace Cli.SymbolTree

theorem lineBreak_notMem_digits (n : Nat) : '\n' ∉ Nat.toDigits 10 n := by
  intro there
  exact absurd (Nat.isDigit_of_mem_toDigits (by decide) (by decide) there) (by decide)

theorem lineBreak_notMem_kindName (kind : Int) : '\n' ∉ (kindName kind).toList := by
  unfold kindName
  split
  · next name found =>
    have known : name ∈ kindNames := by
      split at found
      · cases found
      · exact List.mem_of_getElem? found
    have all : ∀ name ∈ kindNames, '\n' ∉ name.toList := by decide
    exact all name known
  · have digits : '\n' ∉ (toString kind).toList := by
      rw [Json.toString_int]
      have unsigned : '\n' ∉ Json.sign (kind < 0) := by
        unfold Json.sign
        split
        · decide
        · decide
      exact fun there => (List.mem_append.mp there).elim unsigned (lineBreak_notMem_digits _)
    simpa using digits

/-- A symbol is shown on one line, unless its name breaks it. -/
theorem lineBreak_text (depth number : Nat) (s : Symbol) :
    '\n' ∈ (s.text depth number).toList ↔ '\n' ∈ s.name.toList := by
  have kind := lineBreak_notMem_kindName s.kind
  have digits := lineBreak_notMem_digits number
  simp [Symbol.text, kind, digits]

theorem number_of_text {depth number number' : Nat} {s : Symbol}
    (same : s.text depth number = s.text depth number') : number = number' := by
  have digits : Nat.toDigits 10 number = Nat.toDigits 10 number' := by
    simpa [Symbol.text, ← String.toList_inj] using same
  rw [← @Nat.ofDigitChars_ten_toDigits number, digits, Nat.ofDigitChars_ten_toDigits]

/-- Whatever answer to a question for symbols can be read, it tells of none, or of symbols that are shown. -/
theorem shows_of_read {raw : Json} {answer : Typed} (read : ValueType.symbols.shape.value? raw = some answer) :
    answer = .null ∨ ∃ place vs forest, answer = .just (.alternative place (.list vs)) ∧
      Typed.ShowsAll vs forest := by
  simp only [ValueType.symbols, Shape.value?] at read
  by_cases empty : raw = .null
  · subst empty
    rw [Shape.valueFrom] at read
    cases read
    exact .inl rfl
  · rw [Shape.valueFrom_nullable empty, Shape.valueFrom] at read
    obtain ⟨w, here, rfl⟩ := Option.map_eq_some_iff.mp read
    obtain ⟨place, w, rfl, s, option, read⟩ := Shape.valueFirst_some here
    have listed : ∃ vs, w = .list vs ∧ ∀ v ∈ vs, ∃ s, v.Shows s := by
      rcases List.mem_cons.mp option with rfl | option
      · obtain ⟨vs, rfl, each⟩ := Shape.list_of_read read
        refine ⟨vs, rfl, fun v there => ?_⟩
        obtain ⟨i, read⟩ := each v there
        exact Shape.shows_symbolInformation read
      · cases List.mem_singleton.mp option
        obtain ⟨vs, rfl, each⟩ := Shape.list_of_read read
        refine ⟨vs, rfl, fun v there => ?_⟩
        obtain ⟨i, read⟩ := each v there
        rw [Shape.documentSymbol, Shape.valueFrom] at read
        exact Shape.shows_documentSymbol rfl read
    obtain ⟨vs, rfl, each⟩ := listed
    obtain ⟨forest, all⟩ := Shape.showsAll vs each
    exact .inr ⟨place, vs, forest, rfl, all⟩

variable {raw : Json} {answer : Typed}

/-- An answer that can be read is listed: a symbol for each text and a text for each symbol, in one list or ahead
of those inside it, by its kind, its name and the number of its line. -/
theorem listed (read : ValueType.symbols.shape.value? raw = some answer) :
    answer.Listed Symbol.shownNumber (listing answer.encode) := by
  rcases shows_of_read read with rfl | ⟨place, vs, forest, rfl, all⟩
  · exact .nothing
  · have same : listing (Typed.just (.alternative place (.list vs))).encode =
        (Symbol.preorderAll 0 forest).map (Symbol.shown Symbol.shownNumber) := all.lines 0
    rw [same]
    exact .symbols all.described

theorem line_lt (read : ValueType.symbols.shape.value? raw = some answer) {s : Symbol} (told : answer.Tells s) :
    s.line < 2 ^ 32 := by
  cases told with
  | symbol described there =>
    rcases shows_of_read read with empty | ⟨place, vs, forest, same, all⟩
    · cases empty
    · cases same
      cases all.described.unique described
      exact all.small 0 _ there

/-- With the numbers that people count, it is listed only if none of its symbols starts in the last line. -/
theorem listed_iff (read : ValueType.symbols.shape.value? raw = some answer) :
    answer.Listed Symbol.lineNumber (listing answer.encode) ↔ ∀ s, answer.Tells s → s.line ≠ 2 ^ 32 - 1 := by
  rcases shows_of_read read with rfl | ⟨place, vs, forest, rfl, all⟩
  · refine ⟨fun _ s told => ?_, fun _ => .nothing⟩
    cases told
  have shown : listing (Typed.just (.alternative place (.list vs))).encode =
      (Symbol.preorderAll 0 forest).map (Symbol.shown Symbol.shownNumber) := all.lines 0
  rw [shown]
  constructor
  · intro counted s told last
    cases told with
    | symbol described there =>
      cases all.described.unique described
      have same := List.map_inj_left.mp (counted.eq_shown described) _ there
      have number : s.shownNumber = s.lineNumber := number_of_text same
      rw [Symbol.shownNumber, Symbol.lineNumber, last] at number
      exact absurd number (by decide)
  · intro early
    have same : (Symbol.preorderAll 0 forest).map (Symbol.shown Symbol.shownNumber) =
        (Symbol.preorderAll 0 forest).map (Symbol.shown Symbol.lineNumber) := by
      refine List.map_congr_left fun x there => ?_
      have line_lt := all.small 0 x there
      have line_ne := early x.2 (.symbol all.described there)
      have number : x.2.shownNumber = x.2.lineNumber := Nat.mod_eq_of_lt (by rw [Symbol.lineNumber]; omega)
      rw [Symbol.shown, Symbol.shown, number]
    rw [same]
    exact .symbols all.described

end Cli.SymbolTree

/-! The command. -/

theorem Client.read_of_understand {method : String} {shape : Shape} {r : Response} {j : Json}
    (h : understand method shape r = .ok j) : shape.read? (r.result.getD .null) = some j := by
  unfold understand at h
  split at h
  · cases h
  · split at h
    · next read =>
      cases h
      exact read
    · cases h

/-- A query for an answer that may be kept ends with one that was read. -/
theorem Client.lookUp_ends {q : CachedQuery} {now : Nat} {c c' : Client} {s : LookStage} {j : Json}
    (shaped : q.query.result = q.type.shape) (ends : c.lookUp q now s = (c', .done (.ok j))) :
    ∃ raw, q.type.shape.read? raw = some j := by
  cases s with
  | fresh =>
    simp only [lookUp] at ends
    split at ends
    · next found =>
      cases ends
      have hit : (c.cache.get q.key q.type).1 = some j := by rw [found]
      obtain ⟨e, -, -, reading⟩ := ResponseCache.get_some hit
      exact ⟨e.value, reading⟩
    · cases ends
  | asking s =>
    rcases exchanged : c.exchange q.query now s with ⟨c₁, turn⟩
    simp only [lookUp, ask, exchanged] at ends
    cases turn with
    | wait d => cases ends
    | go s' => cases ends
    | done a =>
      simp only [Turn.lift] at ends
      cases result : c₁.outcome q.query a with
      | error e =>
        rw [result] at ends
        cases ends
      | ok i =>
        rw [result] at ends
        cases ends
        obtain ⟨r, -, understood⟩ := outcome_ok result
        exact ⟨_, shaped ▸ read_of_understand understood⟩

namespace Cli.SymbolsPlan

variable {p : SymbolsPlan} {launcher : Launcher} {i : Nat} {f : Fleet}

/-- An answer that was read. -/
def IsAnswer (r : Except Error Json) : Prop :=
  ∀ j, r = .ok j → ∃ raw, ValueType.symbols.shape.read? raw = some j

/-- A step of a query is one on the client of its link, if the link is there. -/
theorem step_lookUp {q : CachedQuery} {s : LookStage} {k : Nat} {f' : Fleet} {turn : Turn Task Outcome}
    (stepped : (Task.lookUp i q s).step k f = (f', turn)) : turn = .done Task.lost ∨
      ∃ c : Client, turn = (c.lookUp q f.now s).2.lift (Task.lookUp i q) .answered := by
  simp only [Task.lookUp, Task.step] at stepped
  cases there : f.links[i]? with
  | none =>
    simp only [Fleet.onLink, there] at stepped
    exact .inl (Prod.mk.inj stepped).2.symm
  | some l =>
    rw [Fleet.onLink_some there] at stepped
    obtain ⟨-, same⟩ := Prod.mk.inj stepped
    refine .inr ⟨l.client, same.symm.trans ?_⟩
    simp only [ClientCall.step, Link.onClient]
    cases (l.client.lookUp q f.now s).2 with
    | _ => rfl

theorem keeps_lookUp (i : Nat) (uri : String) :
    Task.Keeps (fun t => ∃ s, t = .lookUp i (.symbols uri) s) answered IsAnswer := by
  constructor
  · rintro k f t f' t' ⟨s, rfl⟩ stepped
    rcases step_lookUp stepped with lost | ⟨c, turn⟩
    · cases lost
    · cases looked : (c.lookUp (.symbols uri) f.now s).2 with
      | wait d =>
        rw [looked] at turn
        cases turn
      | go s' =>
        rw [looked] at turn
        cases turn
        exact ⟨s', rfl⟩
      | done r =>
        rw [looked] at turn
        cases turn
  · rintro k f t f' r ⟨s, rfl⟩ stepped
    rcases step_lookUp stepped with lost | ⟨c, turn⟩
    · cases lost
      exact nofun
    · rcases looked : c.lookUp (.symbols uri) f.now s with ⟨c', turn'⟩
      rw [looked] at turn
      cases turn' with
      | wait d => cases turn
      | go s' => cases turn
      | done result =>
        cases turn
        rintro j ⟨⟩
        exact Client.lookUp_ends rfl looked

theorem query_answer (p : SymbolsPlan) (i : Nat) (f : Fleet) : IsAnswer (p.query i f).1 := by
  unfold query
  dsimp only
  split
  · exact nofun
  · next uri opened =>
    intro j same
    cases result : (Fleet.runOne _ (.task (.lookUp i (.symbols uri) .fresh) answered)).1 with
    | none =>
      rw [result] at same
      cases same
    | some r =>
      rw [result] at same
      exact Fleet.runOne_task ⟨.fresh, rfl⟩ (keeps_lookUp i uri) result j same

/-- What comes of the command is an answer that was read, listed, or a failure. -/
theorem result_run (p : SymbolsPlan) (launcher : Launcher) :
    ∃ r, IsAnswer r ∧ (p.run launcher).1.result = r.map SymbolTree.listing := by
  unfold run
  dsimp only
  split
  · next e failed => exact ⟨.error e, nofun, rfl⟩
  · next i started => exact ⟨_, query_answer p i _, rfl⟩

end Cli.SymbolsPlan

namespace Cli

/-- Every answer to a question for symbols that can be read is listed: that there is nothing, or one text for each
symbol, in the order of the answer and ahead of those inside it, two spaces further in for each level, with its
kind, its name and a number for its line. That is the number of the line, counted from one, unless a symbol starts
in the last line that a response can name: such a one is shown with 0. A text is one line unless its name has a
line break. And whatever the server does, the command fails and prints nothing, or prints the listing of such an
answer. -/
theorem symbols_are_listed_in_preorder {raw : Json} {answer : Typed}
    (read : ValueType.symbols.shape.value? raw = some answer) :
    ValueType.symbols.shape.read? raw = some answer.encode ∧
      answer.Listed Symbol.shownNumber (SymbolTree.listing answer.encode) ∧
      (∀ s, answer.Tells s → s.line < 2 ^ 32) ∧
      (answer.Listed Symbol.lineNumber (SymbolTree.listing answer.encode) ↔
        ∀ s, answer.Tells s → s.line ≠ 2 ^ 32 - 1) ∧
      (∀ depth number (s : Symbol), '\n' ∈ (s.text depth number).toList ↔ '\n' ∈ s.name.toList) ∧
      ∀ (p : SymbolsPlan) (launcher : Launcher),
        let report := showSymbols (p.run launcher).1
        (report.status = 1 ∧ report.printed.out = []) ∨
          (report.status = 0 ∧ ∃ raw answer, ValueType.symbols.shape.value? raw = some answer ∧
            report.printed.out = SymbolTree.listing answer.encode) := by
  refine ⟨?_, SymbolTree.listed read, fun s => SymbolTree.line_lt read, SymbolTree.listed_iff read,
    SymbolTree.lineBreak_text, fun p launcher => ?_⟩
  · rw [Shape.read?_eq, read]
    rfl
  · obtain ⟨r, answered, result⟩ := p.result_run launcher
    simp only [showSymbols, result]
    cases r with
    | error e => exact .inl ⟨rfl, rfl⟩
    | ok j =>
      obtain ⟨raw, read⟩ := answered j rfl
      rw [Shape.read?_eq] at read
      obtain ⟨answer, value, rfl⟩ := Option.map_eq_some_iff.mp read
      exact .inr ⟨rfl, raw, answer, value, rfl⟩

def lineStart (line : Int) : Json := .obj [("line", .int line), ("character", .int 0)]

def lineRange (line : Int) : Json := .obj [("start", lineStart line), ("end", lineStart line)]

def nested (name : String) (kind line : Int) (inside : List Json) : Json :=
  .obj [("name", .str name), ("kind", .int kind), ("range", lineRange line), ("selectionRange", lineRange line),
    ("children", .arr inside)]

/-- A class, and in the last line of all a method of it. -/
def someClass : Json := nested "A" 5 0 [nested "b" 6 4294967295 []]

def lineValue (line : Int) : Typed :=
  .record [("line", some (.plain (.int line))), ("character", some (.plain (.int 0)))]

def lineRangeValue (line : Int) : Typed :=
  .record [("start", some (lineValue line)), ("end", some (lineValue line))]

def nestedValue (name : String) (kind line : Int) (inside : List Typed) : Typed :=
  .record [("name", some (.plain (.str name))), ("detail", none), ("kind", some (.plain (.int kind))),
    ("tags", none), ("deprecated", none), ("range", some (lineRangeValue line)),
    ("selectionRange", some (lineRangeValue line)), ("children", some (.list inside))]

def someClassValue : Typed := nestedValue "A" 5 0 [nestedValue "b" 6 4294967295 []]

section
open Shape Json

theorem value_int {low high n : Int} (within : low ≤ n ∧ n ≤ high) (fuel : Nat) (outer : Shape) :
    valueFrom fuel outer (.int low high) (.int n) = some (.plain (.int n)) := by
  rw [valueFrom_int]
  simp [Json.int?, within]

theorem value_lineRange {line : Int} (small : 0 ≤ line ∧ line ≤ 4294967295) (fuel : Nat) (outer : Shape) :
    valueFrom fuel outer range (lineRange line) = some (lineRangeValue line) := by
  have number (n : Int) (small : 0 ≤ n ∧ n ≤ 4294967295) :
      valueFrom fuel outer uint32 (.int n) = some (.plain (.int n)) := value_int small fuel outer
  have place : valueFrom fuel outer position (lineStart line) = some (lineValue line) := by
    simp [position, lineStart, lineValue, need, valueFrom, valueFields, Record.field, Record.ofJson?,
      Record.occurrences, Record.required, List.lookup_cons, number _ small, number 0 (by decide)]
  simp [range, lineRange, lineRangeValue, need, valueFrom, valueFields, Record.field, Record.ofJson?,
    Record.occurrences, Record.required, List.lookup_cons, place]

theorem value_nested {body outer : Shape} (same : documentSymbol = .loop body) {name : String}
    {kind line : Int} (smallKind : -2147483648 ≤ kind ∧ kind ≤ 2147483647)
    (small : 0 ≤ line ∧ line ≤ 4294967295) {fuel : Nat} {inside : List Json} {values : List Typed}
    (read : inside.mapM (fun i => valueFrom fuel outer .again i) = some values) :
    valueFrom fuel outer body (nested name kind line inside) = some (nestedValue name kind line values) := by
  cases same
  have number : valueFrom fuel outer int32 (.int kind) = some (.plain (.int kind)) :=
    value_int smallKind fuel outer
  have text : valueFrom fuel outer .text (.str name) = some (.plain (.str name)) := by
    rw [valueFrom_text]
    rfl
  have list : valueFrom fuel outer (.list .again) (.arr inside) = some (.list values) := by
    rw [valueFrom, read]
    rfl
  have ranges := value_lineRange small fuel outer
  rw [nested, valueFrom]
  simp [nestedValue, need, may, valueFields, Record.field, Record.ofJson?, Record.occurrences, Record.required,
    Record.optional, List.lookup_cons, number, text, list, ranges]

/-- What is nested has no location, so it is no symbol of a flat list. -/
theorem value_flat_nested (name : String) (kind line : Int) (inside : List Json) (fuel : Nat) (outer : Shape) :
    valueFrom fuel outer symbolInformation (nested name kind line inside) = none := by
  rw [Option.eq_none_iff_forall_ne_some]
  intro v read
  rw [symbolInformation, valueFrom] at read
  obtain ⟨r, record, read⟩ := Option.bind_eq_some_iff.mp read
  obtain ⟨vs, found, -⟩ := Option.map_eq_some_iff.mp read
  have unlocated (w : Option Typed) :
      r.field .required "location" (valueFrom fuel outer location) ≠ some w := by
    rw [nested, Record.ofJson?] at record
    obtain ⟨-, ⟨⟩⟩ := Option.ite_none_right_eq_some.mp record
    nofun
  obtain ⟨w, -, located⟩ := mem_of_valueFields found (.tail _ (.tail _ (.tail _ (.tail _ (.head _)))))
  exact unlocated w located

theorem someClass_is_listed : ∃ answer, ValueType.symbols.shape.value? (.arr [someClass]) = some answer ∧
    answer.Listed Symbol.shownNumber ["Class A (line 1)", "  Method b (line 0)"] := by
  have read : ValueType.symbols.shape.value? (.arr [someClass]) =
      some (.just (.alternative 1 (.list [someClassValue]))) := by
    have deep : Shape.depth (.arr [someClass]) = 6 := by decide +kernel
    have member {fuel : Nat} {body : Shape} (same : documentSymbol = .loop body) :
        valueFrom (fuel + 1) body body someClass = some someClassValue := by
      refine value_nested same (by decide) (by decide) ?_
      have last : valueFrom fuel body body (nested "b" 6 4294967295 []) = some (nestedValue "b" 6 4294967295 []) :=
        value_nested same (by decide) (by decide) rfl
      simp [valueFrom, last]
    have flat : valueFrom 6 ValueType.symbols.shape symbolInformation someClass = none :=
      value_flat_nested _ _ _ _ _ _
    have tree : valueFrom 6 ValueType.symbols.shape documentSymbol someClass = some someClassValue := by
      rw [documentSymbol, valueFrom]
      exact member rfl
    rw [value?, deep]
    simp only [ValueType.symbols] at flat tree ⊢
    simp [valueFrom, valueFirst, flat, tree]
  obtain ⟨-, listed, -⟩ := symbols_are_listed_in_preorder read
  refine ⟨_, read, ?_⟩
  have lines : SymbolTree.listing (Typed.just (.alternative 1 (.list [someClassValue]))).encode =
      ["Class A (line 1)", "  Method b (line 0)"] := by
    decide +kernel
  exact lines ▸ listed

end

end Cli

end LanguageHost
