import LanguageHost.Proofs.Json.Reading
import LanguageHost.Proofs.Percent
import LanguageHost.Proofs.Text.Blank
import LanguageHost.Proofs.Url.Segments
import LanguageHost.Url.Host
import LanguageHost.Url.Parser

/-! How URLs of the forge are read: the host by its name in ASCII, and the path by what stands behind it. -/
namespace LanguageHost

/-! Domain names in ASCII. The tables of other scripts hold no such character, so a name of it is the name
itself in small letters, unless a label of it is in Punycode. -/

namespace Text

/-- All runs of a table begin above ASCII. -/
def CharSet.High (s : CharSet) : Prop := s.runs.all (0x80 ≤ ·.first) = true

theorem CharSet.High.not_contains {s : CharSet} (h : s.High) {c : Char} (low : c.toNat < 0x80) :
    s.contains c = false := by
  rw [contains, List.any_eq_false]
  intro run there within
  have first := of_decide_eq_true (List.all_eq_true.mp h run there)
  simp only [CharRun.contains, Bool.and_eq_true, decide_eq_true_eq] at within
  omega

theorem high_of_mem {s : CharSet} (h : s ∈ [nonspacingMarks, spacingMarks, rightToLeftLetters,
    arabicLetters, arabicDigits]) : s.High := by
  have all : ([nonspacingMarks, spacingMarks, rightToLeftLetters, arabicLetters,
      arabicDigits].all fun s => s.runs.all (0x80 ≤ ·.first)) = true := by
    simp only [nonspacingMarks, spacingMarks, rightToLeftLetters, arabicLetters, arabicDigits,
      CharSet.ofRows, List.flatMap_cons, List.flatMap_nil]
    -- Rows given as characters spare the kernel their octets.
    repeat rw [String.toList_ofList]
    decide +kernel
  exact List.all_eq_true.mp all s h

theorem isMark_low {c : Char} (low : c.toNat < 0x80) : isMark c = false := by
  rw [isMark, (high_of_mem (s := nonspacingMarks) (by simp)).not_contains low,
    (high_of_mem (s := spacingMarks) (by simp)).not_contains low]
  rfl

theorem isFromRight_low {c : Char} (low : c.toNat < 0x80) : (direction c).isFromRight = false := by
  unfold direction
  rw [directions,
    List.find?_cons_of_neg (by simp [(high_of_mem (s := rightToLeftLetters) (by simp)).not_contains low]),
    List.find?_cons_of_neg (by simp [(high_of_mem (s := arabicLetters) (by simp)).not_contains low]),
    List.find?_cons_of_neg (by simp [(high_of_mem (s := arabicDigits) (by simp)).not_contains low])]
  split
  · next d s found =>
      have there := List.mem_of_find?_eq_some found
      simp only [List.mem_cons, List.not_mem_nil, or_false, Prod.mk.injEq] at there
      rcases there with h | h | h | h | h | h <;> rw [h.1] <;> rfl
  · repeat' split
    all_goals rfl

theorem joinersPlaced_low {before cs : List Char} (low : ∀ c ∈ cs, c.toNat < 0x80) :
    joinersPlaced before cs = true := by
  induction cs generalizing before with
  | nil => rfl
  | cons c cs ih =>
      have bound := low c List.mem_cons_self
      rw [joinersPlaced, ih fun d hd => low d (List.mem_cons_of_mem _ hd), Bool.and_true]
      unfold isPlaced
      simp only [if_neg (show ¬ c.toNat = 0x200D by omega), if_neg (show ¬ c.toNat = 0x200C by omega)]

theorem asciiLower_low {c : Char} (low : c.toNat < 0x80) : (asciiLower c).toNat < 0x80 := by
  unfold asciiLower
  split
  · next capital =>
      have upper : c.toNat ≤ 0x5A := capital.2
      rw [Char.ofNat, dif_pos (.inl (by omega))]
      change c.toNat + 32 < 0x80
      omega
  · exact low

theorem mem_of_mem_fields {sep c : Char} {cs field : List Char} (there : field ∈ fields sep cs) (hc : c ∈ field) :
    c ∈ cs := by
  induction cs generalizing field with
  | nil => simp_all [fields]
  | cons d cs ih =>
      rw [fields] at there
      split at there
      · rcases List.mem_cons.mp there with rfl | there
        · cases hc
        · exact List.mem_cons_of_mem _ (ih there hc)
      · obtain ⟨first, rest, eq⟩ := List.exists_cons_of_ne_nil (fields_ne_nil sep cs)
        rw [eq] at there ih
        rcases List.mem_cons.mp there with rfl | there
        · rcases List.mem_cons.mp hc with rfl | hc
          · exact List.mem_cons_self
          · exact List.mem_cons_of_mem _ (ih List.mem_cons_self hc)
        · exact List.mem_cons_of_mem _ (ih (List.mem_cons_of_mem _ there) hc)

end Text

namespace Url

/-- A name in ASCII is looked up in small letters. -/
theorem Domain.toAscii?_low {name : List Char} (low : ∀ c ∈ name, c.toNat < 0x80)
    (plain : ∀ label ∈ Text.fields '.' (name.map Text.asciiLower),
      Text.afterStart? codedMark label = none) : toAscii? name = some (name.map Text.asciiLower) := by
  have small : ∀ c ∈ name.map Text.asciiLower, c.toNat < 0x80 := by
    intro c there
    obtain ⟨d, hd, rfl⟩ := List.mem_map.mp there
    exact Text.asciiLower_low (low d hd)
  have letters : ∀ label ∈ Text.fields '.' (name.map Text.asciiLower), ∀ c ∈ label, c.toNat < 0x80 :=
    fun label there c hc => small c (Text.mem_of_mem_fields there hc)
  have mapped : name.mapM mapChar? = some (name.map fun c => [Text.asciiLower c]) := by
    refine Json.mapM_eq_some_iff.mpr (List.forall₂_map_right_iff.mpr (List.forall₂_same.mpr fun c hc => ?_))
    rw [mapChar?, if_pos (low c hc)]
  have normal : Text.normalForm (name.map Text.asciiLower) = name.map Text.asciiLower := by
    refine if_pos (List.all_eq_true.mpr fun c hc => decide_eq_true ?_)
    have bound := small c hc
    omega
  have read : (Text.fields '.' (name.map Text.asciiLower)).mapM readLabel? =
      some (Text.fields '.' (name.map Text.asciiLower)) := by
    refine Json.mapM_eq_some_iff.mpr (List.forall₂_same.mpr fun label there => ?_)
    rw [readLabel?, plain label there]
  have written : (Text.fields '.' (name.map Text.asciiLower)).mapM writeLabel? =
      some (Text.fields '.' (name.map Text.asciiLower)) := by
    refine Json.mapM_eq_some_iff.mpr (List.forall₂_same.mpr fun label there => ?_)
    exact if_pos (List.all_eq_true.mpr fun c hc => decide_eq_true (letters label there c hc))
  have joined : (Text.fields '.' (name.map Text.asciiLower)).all isWellJoined = true := by
    refine List.all_eq_true.mpr fun label there => ?_
    have first : label.head?.any Text.isMark = false := by
      cases label with
      | nil => rfl
      | cons c cs => exact Text.isMark_low (letters _ there c List.mem_cons_self)
    rw [isWellJoined, first, Text.joinersPlaced_low (letters label there)]
    rfl
  have directed : keepDirections (Text.fields '.' (name.map Text.asciiLower)) = true := by
    have none : ((Text.fields '.' (name.map Text.asciiLower)).map (·.map Text.direction)).any
        (·.any Text.Direction.isFromRight) = false := by
      refine List.any_eq_false.mpr fun ds there => ?_
      obtain ⟨label, inside, rfl⟩ := List.mem_map.mp there
      refine Bool.not_eq_true _ ▸ List.any_eq_false.mpr fun d hd => ?_
      obtain ⟨c, hc, rfl⟩ := List.mem_map.mp hd
      rw [Text.isFromRight_low (letters label inside c hc)]
      exact Bool.false_ne_true
    simp only [keepDirections, none]
    rfl
  have whole : (name.map fun c => [Text.asciiLower c]).flatten = name.map Text.asciiLower := by
    rw [← List.flatMap_def, List.map_eq_flatMap]
  simp only [toAscii?, mapped, Option.bind_eq_bind, Option.bind_some, whole, normal, read, written, joined,
    directed, Bool.and_self, if_true, Text.intercalate_fields]
  rfl

theorem specialHost?_github : specialHost? "github.com".toList = some "github.com" := by
  have decoded : Percent.decode? "github.com".toList = some "github.com".toList :=
    Percent.decode?_of_not_mem (by decide)
  have low : "github.com".toList.all (·.toNat < 0x80) = true := by decide
  have looked : Domain.toAscii? "github.com".toList = some "github.com".toList :=
    @Domain.toAscii?_low "github.com".toList
      (fun c there => of_decide_eq_true (List.all_eq_true.mp low c there)) (by decide)
  have plain : ¬ ("github.com".toList.isEmpty ∨ "github.com".toList.any isForbiddenInDomain) := by
    decide
  have named : endsInNumber "github.com".toList = false := by decide
  change (Percent.decode? "github.com".toList).bind (fun decoded => (Domain.toAscii? decoded).bind _) = _
  rw [decoded, Option.bind_some, looked, Option.bind_some, if_neg plain, named]
  rfl

end Url

end LanguageHost

/-! How a URL of the forge is read: its path is what stands behind the host, less what the reading takes off
its end and out of it. -/
namespace LanguageHost.Url

/-- Where the forge keeps what it has. -/
def forge : List Char := "https://github.com/".toList

/-- The text less tabs and newlines. -/
def unbroken (cs : List Char) : List Char := cs.filter fun c => c != '\t' && c != '\n' && c != '\r'

/-- The text less control characters and blanks at its end, and less tabs and newlines. -/
def settled (cs : List Char) : List Char :=
  unbroken (cs.reverse.dropWhile fun c => decide (c.toNat ≤ 0x20)).reverse

theorem mem_unbroken {c : Char} {cs : List Char} :
    c ∈ unbroken cs ↔ c ∈ cs ∧ c ≠ '\t' ∧ c ≠ '\n' ∧ c ≠ '\r' := by
  simp [unbroken, and_assoc]

theorem unbroken_append (cs ds : List Char) : unbroken (cs ++ ds) = unbroken cs ++ unbroken ds :=
  List.filter_append ..

/-- What is taken off the end are characters that do not show. -/
theorem exists_blanks (cs : List Char) :
    ∃ blanks, unbroken cs = settled cs ++ blanks ∧ ∀ c ∈ blanks, c.toNat ≤ 0x20 := by
  have split : (cs.reverse.dropWhile fun c => decide (c.toNat ≤ 0x20)).reverse ++
      (cs.reverse.takeWhile fun c => decide (c.toNat ≤ 0x20)).reverse = cs := by
    rw [← List.reverse_append, List.takeWhile_append_dropWhile, List.reverse_reverse]
  refine ⟨unbroken (cs.reverse.takeWhile fun c => decide (c.toNat ≤ 0x20)).reverse, ?_, fun c there => ?_⟩
  · rw [settled, ← unbroken_append, split]
  · have front := List.mem_reverse.mp (mem_unbroken.mp there).1
    exact of_decide_eq_true (List.all_eq_true.mp List.all_takeWhile c front)

theorem shown_settled (cs : List Char) : ∀ c ∈ (settled cs).getLast?, 0x20 < c.toNat := by
  intro c last
  cases rest : cs.reverse.dropWhile fun c => decide (c.toNat ≤ 0x20) with
  | nil =>
      rw [settled, rest] at last
      cases last
  | cons d ds =>
      have shown := List.head?_dropWhile_not (fun c : Char => decide (c.toNat ≤ 0x20)) cs.reverse
      rw [rest] at shown
      have visible : 0x20 < d.toNat := by simpa using shown
      have other : ∀ e : Char, e.toNat ≤ 0x20 → d ≠ e := by
        rintro e low rfl
        omega
      have kept : unbroken [d] = [d] := by
        simp [unbroken, other '\t' (by decide), other '\n' (by decide), other '\r' (by decide)]
      rw [settled, rest, List.reverse_cons, unbroken_append, kept, List.getLast?_append] at last
      cases last
      exact visible

theorem settled_eq_iff {cs : List Char} : settled cs = cs ↔
    (∀ c ∈ cs, c ≠ '\t' ∧ c ≠ '\n' ∧ c ≠ '\r') ∧ ∀ c ∈ cs.getLast?, 0x20 < c.toNat := by
  constructor
  · intro same
    refine ⟨fun c there => ?_, fun c last => ?_⟩
    · rw [← same] at there
      exact (mem_unbroken.mp there).2
    · rw [← same] at last
      exact shown_settled cs c last
  · rintro ⟨whole, shown⟩
    have kept : unbroken cs = cs := List.filter_eq_self.mpr fun c there => by simpa [and_assoc] using whole c there
    obtain ⟨blanks, split, low⟩ := exists_blanks cs
    rw [kept] at split
    cases final : blanks.getLast? with
    | none =>
        rw [List.getLast?_eq_none_iff.mp final, List.append_nil] at split
        exact split.symm
    | some c =>
        have visible := shown c (by rw [split, List.getLast?_append, final]; rfl)
        have hidden := low c (List.mem_of_getLast? final)
        omega

theorem settled_sublist (cs : List Char) : (settled cs).Sublist cs := by
  refine List.filter_sublist.trans ?_
  have part := (List.dropWhile_sublist (fun c : Char => decide (c.toNat ≤ 0x20)) (l := cs.reverse)).reverse
  rwa [List.reverse_reverse] at part

theorem mem_settled {c : Char} {cs : List Char} (there : c ∈ cs) (shown : 0x20 < c.toNat) : c ∈ settled cs := by
  obtain ⟨blanks, split, low⟩ := exists_blanks cs
  have other : ∀ d : Char, d.toNat ≤ 0x20 → c ≠ d := by
    rintro d low rfl
    omega
  have kept := mem_unbroken.mpr ⟨there, other '\t' (by decide), other '\n' (by decide), other '\r' (by decide)⟩
  rw [split] at kept
  refine (List.mem_append.mp kept).resolve_right fun back => ?_
  have hidden := low c back
  omega

/-- Nothing is taken off a text in front of a slash. -/
theorem settled_append_slash (cs ds : List Char) :
    settled (cs ++ '/' :: ds) = unbroken cs ++ '/' :: settled ds := by
  have back : ((cs ++ '/' :: ds).reverse.dropWhile fun c => decide (c.toNat ≤ 0x20)).reverse =
      (cs ++ ['/']) ++ (ds.reverse.dropWhile fun c => decide (c.toNat ≤ 0x20)).reverse := by
    rw [List.append_cons, List.reverse_append, List.dropWhile_append]
    split
    · next none =>
        rw [List.isEmpty_iff.mp none, List.reverse_append, List.reverse_singleton, List.singleton_append,
          List.dropWhile_cons_of_neg (by decide), List.reverse_cons, List.reverse_reverse, List.reverse_nil,
          List.append_nil]
    · rw [List.reverse_append, List.reverse_reverse]
  rw [settled, back, unbroken_append, unbroken_append, List.append_assoc]
  rfl

theorem stripped_forge (cs : List Char) : stripped (forge ++ cs) = forge ++ settled cs := by
  have front : (forge ++ cs).dropWhile (fun c => decide (c.toNat ≤ 0x20)) = forge ++ cs := rfl
  have slash (ds : List Char) : forge ++ ds = "https://github.com".toList ++ '/' :: ds := by
    rw [List.append_cons]
    rfl
  have host : unbroken "https://github.com".toList = "https://github.com".toList := by decide
  have whole : settled (forge ++ cs) = forge ++ settled cs := by
    rw [slash, slash, settled_append_slash, host]
  rw [← whole, stripped, front]
  rfl

theorem cutScheme?_forge (cs : List Char) :
    cutScheme? (forge ++ cs) = some ("https", "//github.com/".toList ++ cs) := rfl

/-- The path that a text behind the host makes. -/
def trail (cs : List Char) : Trail := Trail.enterAll false ⟨[], false⟩ (slashed true (settled cs))

theorem authority?_forge : authority? "https" false "github.com".toList =
    some (⟨"", none, "github.com", none⟩, []) := by
  have named : host? "https" "github.com".toList = some "github.com" := specialHost?_github
  change (host? "https" "github.com".toList).bind _ = _
  rw [named]
  rfl

theorem parts?_forge (cs : List Char) :
    Pieces.parts? ⟨"https", "//github.com/".toList ++ cs, none, none⟩ =
      some (some ⟨"", none, "github.com", none⟩,
        .segments (Trail.enterAll false ⟨[], false⟩ (slashed true cs)).done.reverse) := by
  change ((authority? "https" false "github.com".toList).bind _) = _
  rw [authority?_forge]
  rfl

/-- The URL of a path of the forge. -/
def ofTrail (t : Trail) : Url :=
  ⟨"https", some ⟨"", none, "github.com", none⟩, .segments t.done.reverse, none, none⟩

theorem pathText_ofTrail (t : Trail) : (ofTrail t).pathText = String.ofList t.text := by
  apply String.toList_injective
  change (String.join (t.done.reverse.map ("/" ++ ·))).toList = _
  rw [String.toList_join, String.toList_ofList, Trail.text, behindSlashes, List.flatMap_map, List.flatMap_map]
  apply List.flatMap_congr
  intro s _
  rw [String.toList_append]
  rfl

theorem ofText?_forge {cs : List Char} (hash : '#' ∉ cs) (mark : '?' ∉ cs) :
    ofText? (String.ofList (forge ++ cs)) = some (ofTrail (trail cs)) := by
  have free {c : Char} (other : c ∉ "//github.com/".toList) (absent : c ∉ cs) :
      Text.cut? c ("//github.com/".toList ++ settled cs) = none := by
    refine Text.cut?_eq_none_iff.mpr fun there => ?_
    rcases List.mem_append.mp there with front | back
    · exact other front
    · exact absent ((settled_sublist cs).mem back)
  have pieces : Pieces.ofText? (String.ofList (forge ++ cs)) =
      some ⟨"https", "//github.com/".toList ++ settled cs, none, none⟩ := by
    unfold Pieces.ofText?
    simp only [String.toList_ofList, stripped_forge, cutScheme?_forge, Option.bind_eq_bind, Option.bind_some,
      free (c := '#') (by decide) hash, free (c := '?') (by decide) mark]
    rfl
  rw [ofText?, pieces, Option.bind_some, Pieces.url?, if_neg (show ¬ "https" = "file" by decide), parts?_forge]
  rfl

theorem Pieces.of_url? {p : Pieces} {u : Url} (read : p.url? = some u) :
    (u.query = none ↔ p.query = none) ∧ (u.fragment = none ↔ p.fragment = none) := by
  unfold url? at read
  split at read
  all_goals
    obtain ⟨parts, -, made⟩ := Option.bind_eq_some_iff.mp read
    cases made
    simp

/-- A URL without a query and a fragment has no sign of either behind its host. -/
theorem free_of_ofText? {cs : List Char} {u : Url} (read : ofText? (String.ofList (forge ++ cs)) = some u)
    (query : u.query = none) (fragment : u.fragment = none) : '#' ∉ cs ∧ '?' ∉ cs := by
  have shown {c : Char} (low : 0x20 < c.toNat) (absent : c ∉ "//github.com/".toList ++ settled cs) : c ∉ cs :=
    fun there => absent (List.mem_append_right _ (mem_settled there low))
  obtain ⟨p, pieces, made⟩ := Option.bind_eq_some_iff.mp read
  have none := Pieces.of_url? made
  have unqueried := none.1.mp query
  have whole := none.2.mp fragment
  unfold Pieces.ofText? at pieces
  simp only [String.toList_ofList, stripped_forge, cutScheme?_forge, Option.bind_eq_bind,
    Option.bind_some] at pieces
  cases hash : Text.cut? '#' ("//github.com/".toList ++ settled cs) with
  | some parts =>
      obtain ⟨front, back⟩ := parts
      rw [hash] at pieces
      simp only at pieces
      split at pieces
      · cases pieces
        cases whole
      · cases pieces
        cases whole
  | none =>
      rw [hash] at pieces
      simp only at pieces
      split at pieces
      · cases pieces
        cases unqueried
      · next mark =>
          exact ⟨shown (by decide) (Text.cut?_eq_none_iff.mp hash),
            shown (by decide) (Text.cut?_eq_none_iff.mp mark)⟩

end LanguageHost.Url
