import LanguageHost.Proofs.Install.Unpinned
import LanguageHost.Proofs.Text.Blank

/-! The grammar of `go.mod`, and what becomes of a file when its lines are read one by one without it. Where
no line can be misread for a module, the module is verified just if a directive requires the version. -/
namespace LanguageHost

namespace Golang
open Text

/-! The grammar. A line is cut at blanks and at marks, up to its comment. -/

/-- What stands in front of the comment. -/
def code : List Char → List Char
  | '/' :: '/' :: _ => []
  | c :: cs => c :: code cs
  | [] => []

/-- The characters that are tokens of their own. -/
def isMark (c : Char) : Bool := "()[]{},".toList.contains c

def cutMarks : List Char → List (List Char)
  | [] => []
  | c :: cs =>
    if isMark c then [c] :: cutMarks cs
    else match cs with
      | [] => [[c]]
      | d :: _ =>
        if isMark d then [c] :: cutMarks cs
        else match cutMarks cs with
          | [] => [[c]]
          | token :: tokens => (c :: token) :: tokens

def tokens (line : List Char) : List (List Char) := (wordsOf (code line)).flatMap cutMarks

/-- A path or a version that is written without quotes. -/
structure IsWord (word : List Char) : Prop where
  ne : word ≠ []
  plain : ∀ c ∈ word, isBlank c = false ∧ isMark c = false ∧ c ≠ '"' ∧ c.toNat ≠ 96
  uncommented : code word = word

instance (word : List Char) : Decidable (IsWord word) :=
  decidable_of_iff (word ≠ [] ∧ (word.all fun c => !isBlank c && !isMark c && c != '"' && c.toNat != 96) = true ∧
    code word = word) <| by
  constructor
  · rintro ⟨ne, plain, uncommented⟩
    exact ⟨ne, by simpa [and_assoc] using plain, uncommented⟩
  · rintro ⟨ne, plain, uncommented⟩
    exact ⟨ne, by simpa [and_assoc] using plain, uncommented⟩

def IsVersion (word : List Char) : Prop := IsWord word ∧ word.head? = some 'v'

instance (word : List Char) : Decidable (IsVersion word) :=
  inferInstanceAs (Decidable (IsWord word ∧ word.head? = some 'v'))

inductive Verb where
  | module | go | require | exclude | replace | retract
deriving DecidableEq

def Verb.word : Verb → List Char
  | .module => "module".toList
  | .go => "go".toList
  | .require => "require".toList
  | .exclude => "exclude".toList
  | .replace => "replace".toList
  | .retract => "retract".toList

/-- What a directive is given. -/
inductive Verb.Takes : Verb → List (List Char) → Prop
  | module {path : List Char} : IsWord path → Takes .module [path]
  | go {version : List Char} : IsWord version → Takes .go [version]
  | require {path version : List Char} : IsWord path → IsVersion version → Takes .require [path, version]
  | exclude {path version : List Char} : IsWord path → IsVersion version → Takes .exclude [path, version]
  | replace {old new : List (List Char)} : (∀ word ∈ old ++ new, IsWord word) →
      old.length ∈ [1, 2] → new.length ∈ [1, 2] → Takes .replace (old ++ "=>".toList :: new)
  | retract {version : List Char} : IsVersion version → Takes .retract [version]
  | interval {low high : List Char} : IsVersion low → IsVersion high →
      Takes .retract [['['], low, [','], high, [']']]

/-- A directive, on a line of its own behind its word or on one of a block. -/
structure Entry where
  verb : Verb
  alone : Bool
  given : List (List Char)
  line : List Char

/-- The line writes the directive. -/
def Entry.Written (e : Entry) : Prop :=
  e.verb.Takes e.given ∧ tokens e.line = if e.alone then e.verb.word :: e.given else e.given

def Entry.Requires (e : Entry) (path version : List Char) : Prop :=
  e.verb = .require ∧ e.given = [path, version]

/-- The directives of the lines that are left, in a block or outside of one. -/
inductive Directives : Option Verb → List (List Char) → List Entry → Prop
  | done : Directives none [] []
  | empty {block : Option Verb} {line lines es} : tokens line = [] → Directives block lines es →
      Directives block (line :: lines) es
  | opens {verb : Verb} {line lines es} : verb ≠ .go → tokens line = [verb.word, ['(']] →
      Directives (some verb) lines es → Directives none (line :: lines) es
  | closes {verb : Verb} {line lines es} : tokens line = [[')']] → Directives none lines es →
      Directives (some verb) (line :: lines) es
  | bare {verb : Verb} {line lines es} : verb ≠ .go → tokens line = [verb.word, ['('], [')']] →
      Directives none lines es → Directives none (line :: lines) es
  | alone {e : Entry} {lines es} : e.alone = true → e.Written → Directives none lines es →
      Directives none (e.line :: lines) (e :: es)
  | listed {e : Entry} {lines es} : e.alone = false → e.Written → Directives (some e.verb) lines es →
      Directives (some e.verb) (e.line :: lines) (e :: es)

/-- What may stand on a line of a file. -/
inductive LineOf (es : List Entry) (line : List Char) : Prop
  | empty : tokens line = [] → LineOf es line
  | header {verb : Verb} {rest : List (List Char)} : tokens line = verb.word :: ['('] :: rest → LineOf es line
  | closes : tokens line = [[')']] → LineOf es line
  | entry {e : Entry} : e ∈ es → e.line = line → LineOf es line

theorem LineOf.cons {es : List Entry} {line : List Char} (h : LineOf es line) (e : Entry) :
    LineOf (e :: es) line := by
  cases h with
  | empty nothing => exact .empty nothing
  | header opens => exact .header opens
  | closes ends => exact .closes ends
  | entry there same => exact .entry (List.mem_cons_of_mem _ there) same

theorem Directives.lineOf {block : Option Verb} {lines : List (List Char)} {es : List Entry}
    (h : Directives block lines es) : ∀ line ∈ lines, LineOf es line := by
  induction h with
  | done => simp
  | empty nothing _ ih => exact List.forall_mem_cons.mpr ⟨.empty nothing, ih⟩
  | opens _ header _ ih | bare _ header _ ih => exact List.forall_mem_cons.mpr ⟨.header header, ih⟩
  | closes ends _ ih => exact List.forall_mem_cons.mpr ⟨.closes ends, ih⟩
  | alone _ _ _ ih | listed _ _ _ ih =>
    refine List.forall_mem_cons.mpr ⟨.entry List.mem_cons_self rfl, fun line there => ?_⟩
    exact (ih line there).cons _

theorem Directives.entry {block : Option Verb} {lines : List (List Char)} {es : List Entry}
    (h : Directives block lines es) : ∀ e ∈ es, e.line ∈ lines ∧ e.Written := by
  induction h with
  | done => simp
  | empty _ _ ih | opens _ _ _ ih | closes _ _ ih | bare _ _ _ ih =>
    exact fun e there => ⟨List.mem_cons_of_mem _ (ih e there).1, (ih e there).2⟩
  | alone _ written _ ih | listed _ written _ ih =>
    refine List.forall_mem_cons.mpr ⟨⟨List.mem_cons_self, written⟩, fun e there => ?_⟩
    exact ⟨List.mem_cons_of_mem _ (ih e there).1, (ih e there).2⟩

/-! What the reader of lines makes of the words of a line. -/

/-- What is left of the first word. -/
def bare (word : List Char) : List Char := dropRequire word.length word

/-- The words as they are read: those for a requirement are taken off the first. -/
def shown : List (List Char) → List (List Char)
  | [] => []
  | word :: words => if bare word = [] then words else bare word :: words

theorem shown_gone {word : List Char} (gone : bare word = []) (words : List (List Char)) :
    shown (word :: words) = words := if_pos gone

theorem shown_left {word : List Char} (left : bare word ≠ []) (words : List (List Char)) :
    shown (word :: words) = bare word :: words := if_neg left

theorem afterStart?_append_break {start word rest : List Char} (solid : ∀ c ∈ start, isBlank c = false)
    (breaks : Breaks rest) : afterStart? start (word ++ rest) = (afterStart? start word).map (· ++ rest) := by
  induction start generalizing word with
  | nil => rfl
  | cons p start ih =>
    cases word with
    | nil =>
      cases rest with
      | nil => rfl
      | cons c rest =>
        have other : p ≠ c := by
          rintro rfl
          cases (solid p List.mem_cons_self).symm.trans (breaks p rfl)
        exact if_neg other
    | cons c word =>
      simp only [List.cons_append, afterStart?]
      split
      · exact ih fun d there => solid d (List.mem_cons_of_mem _ there)
      · rfl

theorem require_plain : ∀ c ∈ "require".toList, isBlank c = false ∧ isMark c = false ∧ c ≠ '/' := by
  have all : ("require".toList.all fun c => !isBlank c && !isMark c && c != '/') = true := by decide
  simpa [and_assoc] using all

theorem dropRequire_append {word rest : List Char} (breaks : Breaks rest) (fuel : Nat) :
    dropRequire fuel (word ++ rest) = dropRequire fuel word ++ rest := by
  induction fuel generalizing word with
  | zero => rfl
  | succ fuel ih =>
    simp only [dropRequire]
    rw [afterStart?_append_break (fun c there => (require_plain c there).1) breaks]
    cases afterStart? "require".toList word with
    | none => rfl
    | some inner => exact ih

theorem dropRequire_fuel {fuel fuel' : Nat} {word : List Char} (enough : word.length ≤ fuel)
    (enough' : word.length ≤ fuel') : dropRequire fuel word = dropRequire fuel' word := by
  induction fuel generalizing fuel' word with
  | zero =>
    obtain rfl := List.length_eq_zero_iff.mp (Nat.le_zero.mp enough)
    cases fuel' <;> rfl
  | succ fuel ih =>
    cases fuel' with
    | zero =>
      obtain rfl := List.length_eq_zero_iff.mp (Nat.le_zero.mp enough')
      rfl
    | succ fuel' =>
      simp only [dropRequire]
      cases after : afterStart? "require".toList word with
      | none => rfl
      | some inner =>
        have shorter : inner.length < word.length := by
          rw [afterStart?_eq after, List.length_append]
          exact Nat.lt_add_of_pos_left (by decide)
        exact ih (by omega) (by omega)

/-- A line is read by its words. -/
theorem requirement?_ofList (line : List Char) :
    requirement? (String.ofList line) = match shown (wordsOf line) with
      | module :: version :: _ => some (String.ofList module, String.ofList version)
      | _ => none := by
  have words : wordsOf (dropRequire (trimmed line).length (trimmed line)) = shown (wordsOf line) := by
    obtain ⟨front, back, before, behind, whole⟩ := exists_eq_trimmed line
    have same : wordsOf line = wordsOf (trimmed line) := by
      rw [whole, wordsOf_between before behind, ← whole]
    rw [same]
    cases first : wordsOf (trimmed line) with
    | nil =>
      have nothing : trimmed line = [] := by
        cases text : trimmed line with
        | nil => rfl
        | cons c cs =>
          obtain ⟨word, words, some⟩ := exists_wordsOf_cons (head_trimmed c (by rw [text]; rfl)) cs
          rw [text, some] at first
          cases first
      rw [nothing]
      rfl
    | cons word words =>
      obtain ⟨front, rest, blank, text, ne, solid, breaks, rfl⟩ := exists_of_wordsOf first
      cases front with
      | cons c front =>
        have head := @head_trimmed line c (by rw [text]; rfl)
        cases head.symm.trans (blank c List.mem_cons_self)
      | nil =>
        rw [List.nil_append] at text
        have enough : word.length ≤ (word ++ rest).length := by simp
        rw [text, dropRequire_append breaks, dropRequire_fuel enough (Nat.le_refl _)]
        change wordsOf (bare word ++ rest) = _
        by_cases gone : bare word = []
        · rw [shown_gone gone, gone]
          rfl
        · rw [shown_left gone]
          obtain ⟨count, whole⟩ := exists_requires word.length word
          refine wordsOf_solid (fun c there => solid c ?_) gone breaks
          rw [whole]
          exact List.mem_append_right _ there
  unfold requirement?
  rw [String.toList_ofList]
  dsimp only
  rewrite [words]
  rfl

/-! The words of a line and its tokens. -/

theorem requires_plain {count : Nat} : ∀ c ∈ requires count, isBlank c = false ∧ isMark c = false ∧ c ≠ '/' := by
  intro c there
  obtain ⟨word, copy, inside⟩ := List.mem_flatten.mp there
  exact require_plain c (List.eq_of_mem_replicate copy ▸ inside)

theorem code_cons {c : Char} (other : c ≠ '/') (cs : List Char) : code (c :: cs) = c :: code cs := by
  rw [code.eq_def]
  split
  · next same =>
    cases same
    exact absurd rfl other
  · next same =>
    cases same
    rfl
  · contradiction

theorem code_slash {cs : List Char} (single : cs.head? ≠ some '/') : code ('/' :: cs) = '/' :: code cs := by
  rw [code.eq_def]
  split
  · next same =>
    cases same
    exact absurd rfl single
  · next same =>
    cases same
    rfl
  · contradiction

theorem code_plain {front : List Char} (plain : ∀ c ∈ front, c ≠ '/') (cs : List Char) :
    code (front ++ cs) = front ++ code cs := by
  induction front with
  | nil => rfl
  | cons c front ih =>
    rw [List.cons_append, code_cons (plain c List.mem_cons_self),
      ih fun d there => plain d (List.mem_cons_of_mem _ there)]
    rfl

theorem ne_slash_of_isBlank {c : Char} (blank : isBlank c = true) : c ≠ '/' := by
  rintro rfl
  exact absurd blank (by decide)

/-- A word without a comment in it ends before the comment. -/
theorem code_word {word rest : List Char} (uncommented : code word = word) (breaks : Breaks rest) :
    code (word ++ rest) = word ++ code rest := by
  induction word with
  | nil => rfl
  | cons c word ih =>
    by_cases slash : c = '/'
    · subst slash
      have single : word.head? ≠ some '/' := by
        intro double
        obtain ⟨more, rfl⟩ := List.head?_eq_some_iff.mp double
        cases uncommented
      have single' : (word ++ rest).head? ≠ some '/' := by
        rw [List.head?_append]
        cases word with
        | nil => exact fun first => ne_slash_of_isBlank (breaks _ first) rfl
        | cons d word => exact single
      rw [code_slash single] at uncommented
      rw [List.cons_append, code_slash single', ih (List.cons.inj uncommented).2]
      rfl
    · rw [code_cons slash] at uncommented
      rw [List.cons_append, code_cons slash, ih (List.cons.inj uncommented).2]
      rfl

theorem breaks_code {rest : List Char} (breaks : Breaks rest) : Breaks (code rest) := by
  cases rest with
  | nil => exact breaks
  | cons c rest =>
    rw [code_cons (ne_slash_of_isBlank (breaks c rfl))]
    exact breaks

theorem cutMarks_plain {word : List Char} (plain : ∀ c ∈ word, isMark c = false) (ne : word ≠ []) :
    cutMarks word = [word] := by
  induction word with
  | nil => exact absurd rfl ne
  | cons c word ih =>
    cases word with
    | nil => simp [cutMarks, plain c List.mem_cons_self]
    | cons d word =>
      have inner := ih (fun e there => plain e (List.mem_cons_of_mem _ there)) (List.cons_ne_nil _ _)
      rw [cutMarks.eq_def]
      simp [plain c List.mem_cons_self, plain d (by simp), inner]

theorem flatten_cutMarks (word : List Char) : (cutMarks word).flatten = word := by
  induction word with
  | nil => rfl
  | cons c word ih =>
    rw [cutMarks.eq_def]
    dsimp only
    split
    · rw [List.flatten_cons, ih]
      rfl
    · split
      · rfl
      · split
        · rw [List.flatten_cons, ih]
          rfl
        · cases cut : cutMarks _ with
          | nil =>
            rw [cut] at ih
            cases ih
          | cons token tokens =>
            rw [← ih, cut]
            rfl

/-- A word that is neither cut nor commented is a token. -/
theorem tokens_of_wordsOf {line word : List Char} {words : List (List Char)}
    (first : wordsOf line = word :: words) (uncommented : code word = word)
    (plain : ∀ c ∈ word, isMark c = false) : ∃ rest, wordsOf rest = words ∧ tokens line = word :: tokens rest := by
  obtain ⟨front, rest, blank, rfl, ne, solid, breaks, rfl⟩ := exists_of_wordsOf first
  refine ⟨rest, rfl, ?_⟩
  rw [tokens, code_plain fun c there => ne_slash_of_isBlank (blank c there), code_word uncommented breaks,
    wordsOf_blank blank, wordsOf_solid solid ne (breaks_code breaks), List.flatMap_cons, cutMarks_plain plain ne]
  rfl

/-- The words for a requirement in front of it neither cut a word nor comment it. -/
theorem plain_of_bare {word : List Char} (plain : ∀ c ∈ bare word, isMark c = false)
    (uncommented : code (bare word) = bare word) : (∀ c ∈ word, isMark c = false) ∧ code word = word := by
  obtain ⟨count, whole⟩ := exists_requires word.length word
  change word = requires count ++ bare word at whole
  constructor
  · rw [whole]
    intro c there
    rcases List.mem_append.mp there with before | behind
    · exact (requires_plain c before).2.1
    · exact plain c behind
  · rw [whole, code_plain fun c there => (requires_plain c there).2.2, uncommented]

/-- What is read first as a word is read first of the tokens. -/
theorem shown_tokens {line name : List Char} (word : IsWord name)
    (first : (shown (wordsOf line)).head? = some name) : (shown (tokens line)).head? = some name := by
  have unmarked : ∀ c ∈ name, isMark c = false := fun c there => (word.plain c there).2.1
  cases words : wordsOf line with
  | nil =>
    rw [words] at first
    cases first
  | cons w ws =>
    rw [words] at first
    by_cases gone : bare w = []
    · obtain ⟨plain, uncommented⟩ := @plain_of_bare w (by simp [gone]) (by rw [gone]; rfl)
      obtain ⟨rest, rfl, cut⟩ := tokens_of_wordsOf words uncommented plain
      rw [shown_gone gone] at first
      obtain ⟨vs, more⟩ := List.head?_eq_some_iff.mp first
      obtain ⟨_, -, cut'⟩ := tokens_of_wordsOf more word.uncommented unmarked
      rw [cut, shown_gone gone, cut']
      rfl
    · rw [shown_left gone] at first
      obtain rfl := Option.some.inj first
      obtain ⟨plain, uncommented⟩ := plain_of_bare unmarked word.uncommented
      obtain ⟨rest, -, cut⟩ := tokens_of_wordsOf words uncommented plain
      rw [cut, shown_left gone]
      rfl

theorem ne_of_mem_wordsOf {cs word : List Char} (there : word ∈ wordsOf cs) : word ≠ [] := by
  generalize whole : wordsOf cs = words at there
  induction words generalizing cs with
  | nil => cases there
  | cons first words ih =>
    obtain ⟨_, rest, _, _, ne, _, _, tail⟩ := exists_of_wordsOf whole
    rcases List.mem_cons.mp there with rfl | later
    · exact ne
    · exact ih tail later

theorem flatMap_cutMarks {words : List (List Char)} (ne : ∀ word ∈ words, word ≠ [])
    (plain : ∀ token ∈ words.flatMap cutMarks, ∀ c ∈ token, isMark c = false) :
    words.flatMap cutMarks = words := by
  induction words with
  | nil => rfl
  | cons word words ih =>
    rw [List.flatMap_cons] at plain ⊢
    have whole : ∀ c ∈ word, isMark c = false := by
      intro c there
      rw [← flatten_cutMarks word] at there
      obtain ⟨token, cut, inside⟩ := List.mem_flatten.mp there
      exact plain token (List.mem_append_left _ cut) c inside
    have rest := ih (fun w there => ne w (List.mem_cons_of_mem _ there))
      fun token there => plain token (List.mem_append_right _ there)
    rw [cutMarks_plain whole (ne word List.mem_cons_self), rest]
    rfl

/-- Where no token is a mark, the tokens are the words in front of the comment. -/
theorem wordsOf_code {line : List Char} (plain : ∀ token ∈ tokens line, ∀ c ∈ token, isMark c = false) :
    wordsOf (code line) = tokens line :=
  (flatMap_cutMarks (fun _ there => ne_of_mem_wordsOf there) plain).symm

/-- No word goes on into the comment of the line. -/
def Spaced (line : List Char) : Prop := wordsOf (code line) <+: wordsOf line

instance (line : List Char) : Decidable (Spaced line) :=
  inferInstanceAs (Decidable (wordsOf (code line) <+: wordsOf line))

/-- What keeps a module from being misread. -/
structure Clear (lines : List (List Char)) (es : List Entry) (name : List Char) : Prop where
  /-- it is not called like the directive that a line has for something else -/
  alone : ∀ e ∈ es, e.alone = true → e.verb ≠ .require → name ≠ e.verb.word
  header : ∀ line ∈ lines, ∀ verb : Verb, verb ≠ .require →
    ∀ rest, tokens line = verb.word :: ['('] :: rest → name ≠ verb.word
  /-- the lines of blocks that are read under its name are those that require it -/
  listed : ∀ e ∈ es, e.alone = false →
    ((shown e.given).head? = some name ↔ e.verb = .require ∧ e.given.head? = some name)
  agreed : ∀ e ∈ es, ∀ e' ∈ es, ∀ version version', e.Requires name version → e'.Requires name version' →
    version = version'
  spaced : ∀ e ∈ es, ∀ version, e.Requires name version → Spaced e.line

section clear
variable {lines : List (List Char)} {es : List Entry} {name version : List Char} {e : Entry}

theorem bare_require : bare Verb.require.word = [] := rfl

/-- A version is no repetition of the word for a requirement. -/
theorem bare_ne_of_version (typed : IsVersion version) : bare version ≠ [] := by
  intro gone
  obtain ⟨count, whole⟩ := exists_requires version.length version
  change version = requires count ++ bare version at whole
  have first := List.mem_of_mem_head? typed.2
  rw [whole, gone, List.append_nil] at first
  obtain ⟨word, copy, inside⟩ := List.mem_flatten.mp first
  rw [List.eq_of_mem_replicate copy] at inside
  exact absurd inside (by decide)

/-- A requirement is written in words. -/
theorem Entry.Written.required (written : e.Written) (requires : e.Requires name version) :
    IsVersion version ∧
      wordsOf (code e.line) = if e.alone then [Verb.require.word, name, version] else [name, version] := by
  obtain ⟨takes, spelled⟩ := written
  obtain ⟨verb, given⟩ := requires
  rw [verb, given] at takes spelled
  cases takes with
  | require path typed =>
    refine ⟨typed, spelled ▸ wordsOf_code ?_⟩
    have unmarked : ∀ token ∈ [Verb.require.word, name, version], ∀ c ∈ token, isMark c = false := by
      intro token there c inside
      simp only [List.mem_cons, List.not_mem_nil, or_false] at there
      obtain rfl | rfl | rfl := there
      · exact (require_plain c inside).2.1
      · exact (path.plain c inside).2.1
      · exact (typed.1.plain c inside).2.1
    rw [spelled]
    intro token there
    split at there
    · exact unmarked token there
    · exact unmarked token (List.mem_cons_of_mem _ there)

/-- A line that requires the module is read as what it is. -/
theorem Clear.shown_requires (clear : Clear lines es name) (there : e ∈ es) (written : e.Written)
    (requires : e.Requires name version) : ∃ more, shown (wordsOf e.line) = name :: version :: more := by
  obtain ⟨typed, words⟩ := written.required requires
  obtain ⟨more, whole⟩ := clear.spaced e there version requires
  rw [words] at whole
  refine ⟨more, ?_⟩
  rw [← whole]
  cases alone : e.alone with
  | true => exact shown_gone bare_require _
  | false =>
    have first := (clear.listed e there alone).mpr ⟨requires.1, by rw [requires.2]; rfl⟩
    rw [requires.2] at first
    by_cases gone : bare name = []
    · rw [shown_gone gone] at first
      cases first
      exact absurd gone (bare_ne_of_version typed)
    · rw [shown_left gone] at first
      have same : bare name = name := Option.some.inj first
      refine (shown_left gone _).trans ?_
      rw [same]
      rfl

theorem bare_of_ne {c : Char} (other : 'r' ≠ c) (word : List Char) : bare (c :: word) = c :: word := by
  have none : afterStart? "require".toList (c :: word) = none := if_neg other
  change dropRequire (word.length + 1) (c :: word) = _
  rw [dropRequire, none]

theorem bare_word {verb : Verb} (other : verb ≠ .require) : bare verb.word = verb.word := by
  cases verb with
  | require => exact absurd rfl other
  | replace | retract | module | go | exclude => rfl

theorem word_ne_nil (verb : Verb) : verb.word ≠ [] := by
  cases verb <;> decide

theorem shown_word {verb : Verb} (other : verb ≠ .require) (words : List (List Char)) :
    shown (verb.word :: words) = verb.word :: words := by
  have left : bare verb.word ≠ [] := by
    rw [bare_word other]
    exact word_ne_nil verb
  rw [shown_left left, bare_word other]

/-- A line whose tokens are read under the module's name is one of a requirement of it. -/
theorem Clear.entry_of_shown (clear : Clear lines es name) (path : IsWord name) (file : Directives none lines es)
    {line : List Char} (there : line ∈ lines) (first : (shown (tokens line)).head? = some name) :
    ∃ e ∈ es, e.line = line ∧ e.verb = .require ∧ e.given.head? = some name := by
  have unmarked : ∀ c, isMark c = true → name ≠ [c] := by
    rintro c mark rfl
    cases mark.symm.trans (path.plain c List.mem_cons_self).2.1
  cases file.lineOf line there with
  | empty nothing =>
    rw [nothing] at first
    cases first
  | @header verb rest header =>
    rw [header] at first
    by_cases own : verb = .require
    · rw [own, shown_gone bare_require] at first
      exact absurd (Option.some.inj first).symm (unmarked _ (by decide))
    · rw [shown_word own] at first
      exact absurd (Option.some.inj first).symm (clear.header line there verb own rest header)
  | closes ends =>
    have left : bare [')'] = [')'] := bare_of_ne (by decide) []
    rw [ends, shown_left (by rw [left]; decide), left] at first
    exact absurd (Option.some.inj first).symm (unmarked _ (by decide))
  | @entry e inside same =>
    obtain ⟨-, spelled⟩ := (file.entry e inside).2
    rw [← same, spelled] at first
    cases alone : e.alone with
    | true =>
      rw [alone, if_pos rfl] at first
      by_cases own : e.verb = .require
      · rw [own, shown_gone bare_require] at first
        exact ⟨e, inside, same, own, first⟩
      · rw [shown_word own] at first
        exact absurd (Option.some.inj first).symm (clear.alone e inside alone own)
    | false =>
      rw [alone, if_neg Bool.false_ne_true] at first
      exact ⟨e, inside, same, (clear.listed e inside alone).mp first⟩

theorem Entry.Written.exists_version (written : e.Written) (verb : e.verb = .require)
    (head : e.given.head? = some name) : ∃ version, e.Requires name version := by
  obtain ⟨takes, -⟩ := written
  rw [verb] at takes
  generalize given : e.given = args at takes head
  cases takes with
  | @require path version =>
    cases head
    exact ⟨_, verb, given⟩

/-- What is read under the module's name requires it. -/
theorem Clear.requires_of_shown (clear : Clear lines es name) (path : IsWord name) (file : Directives none lines es)
    {line : List Char} (there : line ∈ lines) {more : List (List Char)}
    (read : shown (wordsOf line) = name :: version :: more) : ∃ e ∈ es, e.Requires name version := by
  have first : (shown (tokens line)).head? = some name := shown_tokens path (by rw [read]; rfl)
  obtain ⟨e, inside, rfl, verb, head⟩ := clear.entry_of_shown path file there first
  have written := (file.entry e inside).2
  obtain ⟨other, requires⟩ := written.exists_version verb head
  obtain ⟨more', read'⟩ := clear.shown_requires inside written requires
  cases read.symm.trans read'
  exact ⟨e, inside, requires⟩

end clear

/-- The version that is looked up in the lines is the one that a directive requires. -/
theorem Clear.lookup_eq_some_iff {text name version : String} {es : List Entry} (clear : Clear (linesOf text.toList) es name.toList)
    (path : IsWord name.toList) (file : Directives none (linesOf text.toList) es) :
    ((lines text).filterMap requirement?).lookup name = some version ↔
      ∃ e ∈ es, e.Requires name.toList version.toList := by
  have required : ∀ {version : String}, ((lines text).filterMap requirement?).lookup name = some version →
      ∃ e ∈ es, e.Requires name.toList version.toList := by
    intro version found
    obtain ⟨_, there, row⟩ := List.mem_filterMap.mp (Table.mem_of_lookup found)
    obtain ⟨line, inside, rfl⟩ := List.mem_map.mp there
    rw [requirement?_ofList] at row
    split at row
    · next m v more read =>
      obtain ⟨rfl, rfl⟩ := Prod.mk.inj (Option.some.inj row)
      rw [String.toList_ofList]
      rw [String.toList_ofList] at clear path ⊢
      exact clear.requires_of_shown path file inside read
    · cases row
  constructor
  · exact required
  · rintro ⟨e, there, requires⟩
    obtain ⟨inside, written⟩ := file.entry e there
    obtain ⟨more, read⟩ := clear.shown_requires there written requires
    have row : (name, version) ∈ (lines text).filterMap requirement? := by
      refine List.mem_filterMap.mpr ⟨_, List.mem_map_of_mem inside, ?_⟩
      rw [requirement?_ofList, read]
      simp
    cases found : ((lines text).filterMap requirement?).lookup name with
    | none =>
      have absent := List.lookup_eq_none_iff.mp found _ row
      simp at absent
    | some other =>
      obtain ⟨e', there', requires'⟩ := required found
      rw [String.toList_inj.mp (clear.agreed e' there' e there _ _ requires' requires)]

end Golang

namespace Install
open Program (Logged)

section file
variable {log : List Occasion} {t t' : Files} {o o' : Operation} {dir file : Path} {p : Package} {text : String}

theorem logged_readText_reads {answer : Except IoError String}
    (made : Logged log t (Program.readText file) answer t') :
    ∃ h, log = [⟨h, .readFile file⟩] ∧ ∀ text, h.Reads file text → answer = .ok text := by
  obtain ⟨whole, rest, content, t₁, rfl, asked, onward⟩ := Program.logged_bind made
  obtain ⟨h, -, rfl, rfl, -⟩ := Program.logged_ask asked
  refine ⟨h, ?_⟩
  cases read : (h.answer (.readFile file)).1 with
  | error e =>
    rw [read] at onward
    cases onward
    refine ⟨rfl, fun text reads => ?_⟩
    obtain ⟨content, read', -⟩ := reads
    cases read.symm.trans read'
  | ok content =>
    rw [read] at onward
    dsimp only at onward
    cases decoded : Utf8.toString? content with
    | none =>
      rw [decoded] at onward
      cases onward
      refine ⟨rfl, fun text reads => ?_⟩
      obtain ⟨content', read', decoded'⟩ := reads
      cases read.symm.trans read'
      cases decoded.symm.trans decoded'
    | some found =>
      rw [decoded] at onward
      cases onward
      refine ⟨rfl, fun text reads => ?_⟩
      obtain ⟨content', read', decoded'⟩ := reads
      cases read.symm.trans read'
      cases decoded.symm.trans decoded'
      rfl

/-- A module is verified by one look into the file. -/
theorem logged_verify_module {r : Except Error Unit} (pinned : p.version ≠ latest)
    (made : Logged log t ((Golang.verify dir p).run.run o) (r, o') t') :
    ∃ h, log = [⟨h, .readFile (dir / "go.mod")⟩] ∧ ∀ text, h.Reads (dir / "go.mod") text →
      (r = .ok () ↔
        ((Text.lines text).filterMap Golang.requirement?).lookup p.name = some (Golang.moduleVersion p)) := by
  unfold Golang.verify Backend.readOrFail at made
  rw [Installing.run_bind] at made
  obtain ⟨reading, rest, ⟨answer, o₁⟩, t₁, rfl, called, onward⟩ := Program.logged_bind made
  rw [Installing.run_bind] at called
  obtain ⟨single, none, ⟨content, o₂⟩, t₂, rfl, lifted, given⟩ := Program.logged_bind called
  obtain ⟨content, rfl, ran⟩ := Installing.Tells.logged_lift lifted
  obtain ⟨h, rfl, reads⟩ := logged_readText_reads ran
  refine ⟨h, ?_⟩
  cases content with
  | error e =>
    cases given
    cases onward
    exact ⟨rfl, fun text there => by cases reads text there⟩
  | ok content =>
    cases given
    dsimp only at onward
    have decided : rest = [] ∧ (r = .ok () ↔
        ((Text.lines content).filterMap Golang.requirement?).lookup p.name = some (Golang.moduleVersion p)) := by
      cases found : ((Text.lines content).filterMap Golang.requirement?).lookup p.name with
      | none =>
        rw [found] at onward
        cases onward
        simp
      | some version =>
        rw [found] at onward
        dsimp only at onward
        split at onward
        · next fits =>
          cases onward
          simp [fits.resolve_left (not_isLatest pinned)]
        · next other =>
          cases onward
          simpa using fun same => other (.inr same)
    obtain ⟨rfl, decided⟩ := decided
    refine ⟨rfl, fun text there => ?_⟩
    obtain rfl := Except.ok.inj (reads text there)
    exact decided

/-- A module that no line of `go.mod` can be misread for is verified if and only if a directive of the file
requires it in the version that is wanted. -/
theorem module_is_verified_iff_required {es : List Golang.Entry} {r : Except Error Unit}
    (pinned : p.version ≠ latest) (made : Logged log t ((Golang.verify dir p).run.run o) (r, o') t')
    (reads : ∀ m ∈ log, m.host.Reads (dir / "go.mod") text)
    (file : Golang.Directives none (Text.linesOf text.toList) es) (path : Golang.IsWord p.name.toList)
    (clear : Golang.Clear (Text.linesOf text.toList) es p.name.toList) :
    r = .ok () ↔ ∃ e ∈ es, e.Requires p.name.toList (Golang.moduleVersion p).toList := by
  obtain ⟨h, rfl, decided⟩ := logged_verify_module pinned made
  rw [decided text (reads _ List.mem_cons_self)]
  exact clear.lookup_eq_some_iff path file

end file

/-! A file with a requirement in a block. -/

namespace Listing
open Golang Text

def text : String :=
  "module lspm-install\n\nexclude example.com/m v1.0.0\n\nrequire (\n\texample.com/m v1.1.0 // indirect\n" ++
    "\texample.com/n v1.0.0\n)\n"

def package : Package where
  id := "pkg:golang/example.com/m@v1.1.0"
  ecosystem := .golang
  name := "example.com/m"
  version := "v1.1.0"
  repository := none
  pin := none
  options := []

/-- The module's own line, an exclusion, and two requirements. -/
def own : Entry := ⟨.module, true, ["lspm-install".toList], "module lspm-install".toList⟩

def excluded : Entry :=
  ⟨.exclude, true, ["example.com/m".toList, "v1.0.0".toList], "exclude example.com/m v1.0.0".toList⟩

def required : Entry :=
  ⟨.require, false, ["example.com/m".toList, "v1.1.0".toList], "\texample.com/m v1.1.0 // indirect".toList⟩

def other : Entry :=
  ⟨.require, false, ["example.com/n".toList, "v1.0.0".toList], "\texample.com/n v1.0.0".toList⟩

theorem linesOf_text : linesOf text.toList = [own.line, [], excluded.line, [], "require (".toList,
    required.line, other.line, [')']] := by
  cbv

theorem path : IsWord package.name.toList := by decide

def entries : List Entry := [own, excluded, required, other]

theorem directives : Directives none (linesOf text.toList) entries := by
  have block : Directives (some .require) [required.line, other.line, [')']] [required, other] := by
    refine .listed (e := required) rfl ⟨.require (by decide) (by decide), by decide⟩ ?_
    refine .listed (e := other) rfl ⟨.require (by decide) (by decide), by decide⟩ ?_
    exact .closes (by decide) .done
  rw [linesOf_text]
  refine .alone (e := own) rfl ⟨.module (by decide), by decide⟩ (.empty (by decide) ?_)
  refine .alone (e := excluded) rfl ⟨.exclude (by decide) (by decide), by decide⟩ (.empty (by decide) ?_)
  exact .opens (by decide) (by decide) block

theorem version_of_requires {e : Entry} (there : e ∈ entries) {version : List Char}
    (requires : e.Requires package.name.toList version) : version = package.version.toList ∧ Spaced e.line := by
  obtain ⟨verb, given⟩ := requires
  simp only [entries, List.mem_cons, List.not_mem_nil, or_false] at there
  obtain rfl | rfl | rfl | rfl := there
  · cases verb
  · cases verb
  · exact ⟨(List.cons.inj (List.cons.inj given).2).1.symm, by decide⟩
  · exact absurd (List.cons.inj given).1 (by decide)

theorem clear : Clear (linesOf text.toList) entries package.name.toList where
  alone := by decide
  header _ _ verb _ _ _ := by cases verb <;> decide
  listed := by decide
  agreed _ there _ there' _ _ requires requires' :=
    (version_of_requires there requires).1.trans (version_of_requires there' requires').1.symm
  spaced _ there _ requires := (version_of_requires there requires).2

def root : Path := ⟨"/"⟩

/-- A machine with the file at its root. -/
def machine (content : Octets) : Host := Sample.host (.dir [("go.mod", .file content false)])

theorem read_file (content : Octets) :
    ((machine content).answer (.readFile (root / "go.mod"))).1 = .ok content := by
  have place : (machine content).absolute (root / "go.mod") = ⟨"/go.mod"⟩ := by
    change root / (root / "go.mod").text = _
    cbv
  have parts : Path.components ⟨"/go.mod"⟩ = [.root, .name "go.mod"] := by cbv
  have located : (machine content).files.locate true ⟨"/go.mod"⟩ = .ok ["go.mod"] := by
    rw [Files.locate_eq (by decide), parts]
    cbv
  change (machine content).files.read ((machine content).absolute (root / "go.mod")) = _
  rw [place, Files.read, Files.find, located]
  rfl

end Listing

/-- A requirement in a block, behind the exclusion of another version and in front of a comment. -/
theorem required_module_is_verified :
    Golang.Directives none (Text.linesOf Listing.text.toList) Listing.entries ∧
    ∃ log o t, Logged log (Listing.machine (Utf8.ofString Listing.text)).files
      ((Golang.verify Listing.root Listing.package).run.run (.start "s")) (.ok (), o) t := by
  have made := Program.logged_log ((Golang.verify Listing.root Listing.package).run.run (.start "s"))
    (Listing.machine (Utf8.ofString Listing.text))
  have pinned : Listing.package.version ≠ latest := by decide
  obtain ⟨h, single, -⟩ := logged_verify_module pinned made
  obtain rfl : _ = h := congrArg Occasion.host (List.cons.inj single).1
  have decided := module_is_verified_iff_required pinned made (fun m there => by
    rw [single] at there
    obtain rfl := List.mem_singleton.mp there
    exact ⟨_, Listing.read_file _, Utf8.toString?_ofString _⟩) Listing.directives Listing.path Listing.clear
  have verified := decided.mpr ⟨Listing.required, by simp [Listing.entries], rfl, rfl⟩
  rw [← verified]
  exact ⟨Listing.directives, _, _, _, made⟩

end Install

end LanguageHost
