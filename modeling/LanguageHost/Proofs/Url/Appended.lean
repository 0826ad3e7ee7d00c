import Mathlib.Data.List.TakeWhile
import LanguageHost.Proofs.Url.Reading

/-! A text that is written behind the URL of a repository and the place of its releases. The path of the whole
is that of the repository, the place and what stands for the text, just when reading takes nothing off either
and finds no dots and no escapes in the text. -/
namespace LanguageHost.Url

/-- Where a repository keeps its releases. -/
def releases : List Char := "/releases/download/".toList

/-- The text is read the same at the end of a URL as in front of a slash. -/
structure Rooted (name : List Char) : Prop where
  shown : ∀ c ∈ (unbroken name).getLast?, 0x20 < c.toNat
  named : ∀ s ∈ (slashed true (unbroken name)).getLast?, ¬ IsDots s

/-- The text is read as it stands: nothing in it means anything to a path but its slashes. -/
structure Literal (text : List Char) : Prop where
  whole : ∀ c ∈ text, c ≠ '\t' ∧ c ≠ '\n' ∧ c ≠ '\r'
  straight : '\\' ∉ text
  shown : ∀ c ∈ text.getLast?, 0x20 < c.toNat
  unescaped : Percent.decode? text = some text
  named : ∀ s ∈ Text.fields '/' text, ¬ IsDots s

/-! What stands for segments in a path. -/

theorem encode_inPath_slash (cs : List Char) :
    Percent.encode inPath ('/' :: cs) = '/' :: Percent.encode inPath cs := rfl

theorem encode_behindSlashes (texts : List (List Char)) :
    Percent.encode inPath (behindSlashes texts) = behindSlashes (texts.map (Percent.encode inPath)) := by
  induction texts with
  | nil => rfl
  | cons text texts ih =>
      change Percent.encode inPath ('/' :: text ++ behindSlashes texts) =
        '/' :: Percent.encode inPath text ++ behindSlashes (texts.map (Percent.encode inPath))
      rw [← ih, Percent.encode, List.flatMap_append]
      rfl

theorem slash_notMem_encode {segment : List Char} (free : '/' ∉ segment) :
    '/' ∉ Percent.encode inPath segment := by
  intro there
  exact free (Percent.mem_of_mem_encode there (by decide) (by decide))

theorem slash_notMem_slashed {cs segment : List Char} (there : segment ∈ slashed true cs) : '/' ∉ segment := by
  intro slash
  have none := isSlash_of_mem_slashed there '/' slash
  cases none

theorem slashed_eq_fields {cs : List Char} (straight : '\\' ∉ cs) : slashed true cs = Text.fields '/' cs := by
  induction cs with
  | nil => rfl
  | cons c cs ih =>
      obtain ⟨other, later⟩ := not_or.mp (mt List.mem_cons.mpr straight)
      rw [slashed, Text.fields, ih later]
      by_cases slash : c = '/'
      · rw [if_pos slash, if_pos (by simp [isSlash, slash])]
      · rw [if_neg slash]
        exact if_neg (by simp [isSlash, slash, Ne.symm other])

theorem map_straight {cs : List Char} (absent : '\\' ∉ cs) : cs.map (straight true) = cs := by
  conv => rhs; rw [← List.map_id cs]
  apply List.map_congr_left
  intro c there
  by_cases slash : c = '/'
  · rw [straight, if_pos (by simp [isSlash, slash]), slash]
    rfl
  · have other : c ≠ '\\' := by
      rintro rfl
      exact absent there
    rw [straight, if_neg (by simp [isSlash, slash, other])]
    rfl

theorem length_straight (cs : List Char) :
    (Utf8.encode (cs.map (straight true))).length = (Utf8.encode cs).length := by
  induction cs with
  | nil => rfl
  | cons c cs ih =>
      rw [List.map_cons, Utf8.encode_cons, Utf8.encode_cons, List.length_append, List.length_append, ih]
      unfold straight
      split
      · next slash =>
          simp only [isSlash, Bool.true_and, Bool.or_eq_true, beq_iff_eq] at slash
          rcases slash with rfl | rfl <;> rfl
      · rfl

theorem length_encode_le {cs ds : List Char} (part : cs.Sublist ds) :
    (Utf8.encode cs).length ≤ (Utf8.encode ds).length := by
  induction part with
  | slnil => exact Nat.le_refl _
  | cons d _ ih =>
      rw [Utf8.encode_cons, List.length_append]
      omega
  | cons_cons d _ ih =>
      rw [Utf8.encode_cons, Utf8.encode_cons, List.length_append, List.length_append]
      omega

/-- A text that loses no octet loses no character. -/
theorem eq_of_length {cs ds : List Char} (part : cs.Sublist ds)
    (same : (Utf8.encode cs).length = (Utf8.encode ds).length) : cs = ds := by
  induction part with
  | slnil => rfl
  | @cons cs ds d part ih =>
      have some := List.length_pos_iff.mpr (@String.utf8EncodeChar_ne_nil d)
      have most := length_encode_le part
      rw [Utf8.encode_cons, List.length_append] at same
      omega
  | cons_cons d part ih =>
      rw [Utf8.encode_cons, Utf8.encode_cons, List.length_append, List.length_append] at same
      rw [ih (by omega)]

/-- A character that is no part of an escaped dot is there when the dots are written out. -/
theorem mem_dots {c : Char} {segment : List Char} (there : c ∈ segment) (low : c.toNat ≤ 0x20) :
    c ∈ dots segment := by
  have other : ∀ d : Char, 0x20 < d.toNat → c ≠ d := by
    rintro d high rfl
    omega
  fun_induction dots segment with
  | case1 rest ih =>
      simp only [List.mem_cons, other '%' (by decide), other '2' (by decide), other 'e' (by decide),
        false_or] at there
      exact List.mem_cons_of_mem _ (ih there)
  | case2 rest ih =>
      simp only [List.mem_cons, other '%' (by decide), other '2' (by decide), other 'E' (by decide),
        false_or] at there
      exact List.mem_cons_of_mem _ (ih there)
  | case3 d rest _ _ ih =>
      rcases List.mem_cons.mp there with rfl | there
      · exact List.mem_cons_self
      · exact List.mem_cons_of_mem _ (ih there)
  | case4 => cases there

theorem not_isDots_of_blank {c : Char} {segment : List Char} (there : c ∈ segment) (low : c.toNat ≤ 0x20) :
    ¬ IsDots segment := by
  have kept := mem_dots there low
  rintro (one | two)
  · rw [one] at kept
    obtain rfl := List.mem_singleton.mp kept
    exact absurd low (by decide)
  · rw [two] at kept
    simp only [List.mem_cons, List.not_mem_nil, or_false, or_self] at kept
    obtain rfl := kept
    exact absurd low (by decide)

namespace Trail

theorem text_push (t : Trail) (s : String) : (t.push s).text = t.text ++ '/' :: s.toList := by
  simp [text, push, behindSlashes]

theorem text_of_done {t u : Trail} {later : List String} (made : t.done = later ++ u.done) :
    t.text = u.text ++ behindSlashes (later.reverse.map String.toList) := by
  simp [text, made, behindSlashes]

/-- No segment holds a slash. -/
def Unslashed (t : Trail) : Prop := ∀ s ∈ t.done, '/' ∉ s.toList

theorem unslashed_back {t : Trail} (h : t.Unslashed) : t.back.Unslashed := by
  unfold back
  split
  · exact h
  · next s before made =>
      split
      · exact h
      · intro s' there
        apply h
        rw [made]
        exact List.mem_cons_of_mem _ there

theorem unslashed_pass {t : Trail} (h : t.Unslashed) {segment : List Char} (free : '/' ∉ segment) :
    (t.pass false segment).Unslashed := by
  by_cases dots : IsDots segment
  · rcases dots with one | two
    · rwa [pass_one one]
    · rw [pass_two two]
      exact unslashed_back h
  · rw [pass_plain dots]
    intro s there
    rcases List.mem_cons.mp there with rfl | there
    · rw [String.toList_ofList]
      exact slash_notMem_encode free
    · exact h s there

theorem unslashed_foldl {t : Trail} (h : t.Unslashed) {segments : List (List Char)}
    (free : ∀ s ∈ segments, '/' ∉ s) : (segments.foldl (pass false) t).Unslashed := by
  induction segments generalizing t with
  | nil => exact h
  | cons segment segments ih =>
      apply ih (unslashed_pass h (free segment List.mem_cons_self))
      intro s there
      exact free s (List.mem_cons_of_mem _ there)

end Trail

/-! The name of a repository, cut at its slashes. -/

/-- All segments of a name but the last, the last as it ends a URL, and what it ends in elsewhere. -/
structure NameCut (name : List Char) (front : List (List Char)) (last blanks : List Char) : Prop where
  settled : slashed true (settled name) = front ++ [last]
  unbroken : slashed true (unbroken name) = front ++ [last ++ blanks]
  whole : Url.unbroken name = Url.settled name ++ blanks
  low : ∀ c ∈ blanks, c.toNat ≤ 0x20

theorem exists_nameCut (name : List Char) : ∃ front last blanks, NameCut name front last blanks := by
  obtain ⟨blanks, whole, low⟩ := exists_blanks name
  have cut := List.dropLast_concat_getLast (@slashed_ne_nil true (settled name))
  refine ⟨_, _, blanks, cut.symm, ?_, whole, low⟩
  rw [whole]
  apply slashed_append_free _ cut.symm
  intro c there
  have bound := low c there
  have other : ∀ d : Char, 0x20 < d.toNat → c ≠ d := by
    rintro d high rfl
    omega
  simp [isSlash, other '/' (by decide), other '\\' (by decide)]

namespace NameCut
variable {name : List Char} {front : List (List Char)} {last blanks : List Char}
  (cut : NameCut name front last blanks)
include cut

theorem rooted_iff : Rooted name ↔ blanks = [] ∧ ¬ IsDots last := by
  constructor
  · rintro ⟨shown, named⟩
    have none : blanks = [] := by
      cases final : blanks.getLast? with
      | none => exact List.getLast?_eq_none_iff.mp final
      | some c =>
          have visible := shown c (by rw [cut.whole, List.getLast?_append, final]; rfl)
          have hidden := cut.low c (List.mem_of_getLast? final)
          omega
    refine ⟨none, ?_⟩
    apply named last
    rw [cut.unbroken, none, List.append_nil, List.getLast?_concat]
    rfl
  · rintro ⟨rfl, plain⟩
    constructor
    · rw [cut.whole, List.append_nil]
      exact shown_settled name
    · intro s there
      rw [cut.unbroken, List.append_nil, List.getLast?_concat] at there
      cases there
      exact plain

theorem free : '/' ∉ last ∧ ∀ s ∈ front, '/' ∉ s := by
  constructor
  · apply @slash_notMem_slashed (Url.settled name)
    simp [cut.settled]
  · intro s there
    apply @slash_notMem_slashed (Url.settled name)
    simp [cut.settled, there]

end NameCut

theorem trail_append_releases (name text : List Char) : trail (name ++ releases ++ text) =
    Trail.enterAll false ⟨[], false⟩ (slashed true (unbroken name) ++
      "releases".toList :: "download".toList :: slashed true (settled text)) := by
  have place : releases = "/releases/download".toList ++ ['/'] := by decide
  have kept : unbroken "/releases/download".toList =
      '/' :: ("releases".toList ++ '/' :: "download".toList) := by decide
  have whole : slashed true "releases".toList = ["releases".toList] ∧
      slashed true "download".toList = ["download".toList] := by decide
  unfold trail
  rw [place, List.append_assoc, List.append_assoc, List.singleton_append, ← List.append_assoc,
    settled_append_slash, unbroken_append, kept, List.append_assoc, List.cons_append,
    slashed_append (by decide), List.append_assoc, List.cons_append, slashed_append (by decide),
    slashed_append (by decide), whole.1, whole.2]
  rfl

theorem load_slashed (cs : List Char) : load (slashed true cs) = 1 + extent (cs.map (straight true)) := by
  rw [← extent_behindSlashes, behindSlashes_slashed, extent_slash]

theorem load_settled_le (text : List Char) :
    load (slashed true (settled text)) ≤ 1 + (Utf8.encode text).length := by
  rw [load_slashed]
  have most := extent_le ((settled text).map (straight true))
  rw [length_straight] at most
  have part := length_encode_le (settled_sublist text)
  omega

/-- The path is that of the repository, the place of its releases, and what stands for the text. -/
def Trail.Follows (t r : Trail) (text : List Char) : Prop :=
  ∃ rest, t.text = r.text ++ releases ++ rest ∧ Percent.decode? rest = some text

namespace Trail.Follows
variable {t r : Trail} {text : List Char}

theorem weight_eq (h : t.Follows r text) : weight t.done = weight r.done + 19 + (Utf8.encode text).length := by
  obtain ⟨rest, path, decoded⟩ := h
  have extents : extent rest = (Utf8.encode text).length := (Utf8.length_of_decode decoded).symm
  have place : r.text ++ releases ++ rest =
      r.text ++ '/' :: ("releases".toList ++ '/' :: ("download".toList ++ '/' :: rest)) := by
    rw [show releases = '/' :: ("releases".toList ++ '/' :: ("download".toList ++ ['/'])) by decide]
    simp
  rw [← extent_text t, path, place, extent_append_slash, extent_append_slash, extent_append_slash, extent_text,
    extents, show extent "releases".toList = 8 by decide, show extent "download".toList = 8 by decide]
  omega

end Trail.Follows

/-- A segment ends at the next slash. -/
theorem eq_of_behindSlashes {name name' more : List Char} {later : List (List Char)} (free : '/' ∉ name)
    (free' : '/' ∉ name') (same : name ++ behindSlashes later = name' ++ '/' :: more) : name = name' := by
  have upto {cs : List Char} (free : '/' ∉ cs) : cs.takeWhile (· != '/') = cs := by
    apply List.takeWhile_eq_self_iff.mpr
    intro c there
    rw [bne_iff_ne]
    rintro rfl
    exact free there
  have none (later : List (List Char)) : (behindSlashes later).takeWhile (· != '/') = [] := by
    cases later <;> rfl
  have cut := congrArg (List.takeWhile (· != '/')) same
  rw [List.takeWhile_append, List.takeWhile_append, upto free, upto free', if_pos rfl, if_pos rfl, none] at cut
  simpa using cut

theorem encode_blanks {blanks : List Char} (ne : blanks ≠ []) (low : ∀ c ∈ blanks, c.toNat ≤ 0x20) :
    ∃ more, Percent.encode inPath blanks = '%' :: more := by
  cases blanks with
  | nil => contradiction
  | cons c cs =>
      have table : ∀ n ≤ 0x20, (Percent.encodeChar inPath (Char.ofNat n)).head? = some '%' := by decide
      have first := table c.toNat (low c List.mem_cons_self)
      rw [Char.ofNat_toNat] at first
      obtain ⟨more, eq⟩ := List.head?_eq_some_iff.mp first
      exact ⟨more ++ Percent.encode inPath cs, by rw [Percent.encode, List.flatMap_cons, eq]; rfl⟩

namespace Trail

theorem pass_dots {t : Trail} {segment : List Char} (dots : IsDots segment) :
    (t.pass false segment).done = t.done ∨ ∃ z, t.done = z :: (t.pass false segment).done := by
  rcases dots with one | two
  · rw [pass_one one]
    exact .inl rfl
  · rw [pass_two two]
    unfold back
    split
    · exact .inl rfl
    · next z before made =>
        split
        · exact .inl rfl
        · exact .inr ⟨z, made⟩

theorem text_congr {t u : Trail} (same : t.done = u.done) : t.text = u.text := by
  rw [text, same, text]

/-- Blanks that end a URL are not read, but elsewhere they are: the path behind them is another one. -/
theorem not_follows_of_blanks {root : Trail} (unslashed : root.Unslashed) {last blanks text : List Char}
    (free : '/' ∉ last) (ne : blanks ≠ []) (low : ∀ c ∈ blanks, c.toNat ≤ 0x20)
    {segments : List (List Char)} (most : load segments ≤ 19 + (Utf8.encode text).length) :
    ¬ (enterAll false (root.pass false (last ++ blanks)) segments).Follows
      (enterAll false root [last]) text := by
  obtain ⟨c, there⟩ := List.exists_mem_of_ne_nil blanks ne
  have slash : '/' ∉ last ++ blanks := by
    intro inside
    rcases List.mem_append.mp inside with inside | inside
    · exact free inside
    · exact absurd (low _ inside) (by decide)
  have written := slash_notMem_encode slash
  obtain ⟨more, escaped⟩ := encode_blanks ne low
  have parts : Percent.encode inPath (last ++ blanks) = Percent.encode inPath last ++ '%' :: more := by
    rw [Percent.encode, List.flatMap_append, ← escaped]
    rfl
  rw [pass_plain (not_isDots_of_blank (List.mem_append_right _ there) (low c there))]
  generalize Percent.encode inPath (last ++ blanks) = q at written parts
  intro follows
  have weighs := follows.weight_eq
  obtain ⟨rest, path, -⟩ := follows
  have place : releases = '/' :: "releases/download/".toList := by decide
  have above := @kept_or_light (root.push (String.ofList q)) [] _ rfl segments
  rw [enterAll_last] at weighs path
  by_cases dots : IsDots last
  · rw [if_pos dots, weight_push, show extent "".toList = 0 from rfl] at weighs
    rw [if_pos dots, text_push, place] at path
    rcases pass_dots (t := root) dots with same | ⟨z, taken⟩
    · rw [same] at weighs
      rcases above with ⟨later, kept⟩ | light
      · rw [text_of_done (u := root.push (String.ofList q)) kept.symm, text_push, text_congr same] at path
        simp only [List.append_assoc, List.cons_append, String.toList_ofList, List.append_cancel_left_eq,
          List.cons.injEq, true_and] at path
        have none := eq_of_behindSlashes written List.not_mem_nil path
        rw [none] at parts
        simp at parts
      · change _ < weight root.done + _ at light
        omega
    · -- The two dots of the repository took `z`; only where it is empty do both paths go on alike.
      have taken' : root.done = z :: (root.pass false last).done := taken
      have closed : '/' ∉ z.toList := unslashed z (taken' ▸ List.mem_cons_self)
      have below := @kept_or_light (root.push (String.ofList q)) [String.ofList q] _
        (congrArg (String.ofList q :: ·) taken') segments
      have empty : z.toList = [] := by
        rcases below with ⟨later, kept⟩ | light
        · rw [text_of_done (u := (root.pass false last).push z) kept.symm, text_push] at path
          simp only [List.append_assoc, List.cons_append, List.append_cancel_left_eq, List.cons.injEq,
            true_and] at path
          exact eq_of_behindSlashes closed List.not_mem_nil path
        · change _ < weight (root.pass false last).done + _ at light
          omega
      rcases above with ⟨later, kept⟩ | light
      · rw [text_of_done (u := root.push (String.ofList q)) kept.symm, text_push,
          text_congr (u := (root.pass false last).push z) taken', text_push, empty] at path
        simp only [List.append_assoc, List.cons_append, List.nil_append, String.toList_ofList, String.toList_empty,
          List.append_cancel_left_eq, List.cons.injEq, true_and] at path
        have same : q = "releases".toList :=
          eq_of_behindSlashes written (by decide) (path.trans rfl)
        have sign : '%' ∈ "releases".toList := by
          rw [← same, parts]
          simp
        exact absurd sign (by decide)
      · change _ < weight root.done + _ at light
        rw [taken', weight_cons, empty, show extent [] = 0 from rfl] at light
        omega
  · rw [if_neg dots, pass_plain dots, weight_push] at weighs
    rw [if_neg dots, pass_plain dots, text_push, place] at path
    rcases above with ⟨later, kept⟩ | light
    · rw [text_of_done (u := root.push (String.ofList q)) kept.symm, text_push] at path
      simp only [List.append_assoc, List.cons_append, String.toList_ofList, List.append_cancel_left_eq,
        List.cons.injEq, true_and] at path
      have same := eq_of_behindSlashes written (slash_notMem_encode free) path
      rw [same] at parts
      simp at parts
    · change _ < weight root.done + _ at light
      omega

/-- Without dots a path goes on with what stands for the text. -/
theorem text_enterAll_plain {t : Trail} {cs : List Char} (plain : ∀ s ∈ slashed true cs, ¬ IsDots s) :
    (enterAll false t (slashed true cs)).text =
      t.text ++ '/' :: Percent.encode inPath (cs.map (straight true)) := by
  have names : (((slashed true cs).map fun s => String.ofList (Percent.encode inPath s)).reverse.reverse.map
      String.toList) = (slashed true cs).map (Percent.encode inPath) := by
    rw [List.reverse_reverse, List.map_map]
    apply List.map_congr_left
    intro s _
    exact String.toList_ofList
  rw [text_of_done (enterAll_plain plain), names, ← encode_behindSlashes, behindSlashes_slashed,
    encode_inPath_slash]

end Trail

section
variable {name text : List Char}

theorem load_place_le : load ("releases".toList :: "download".toList :: slashed true (settled text)) ≤
    19 + (Utf8.encode text).length := by
  have most := load_settled_le text
  have place : load ["releases".toList, "download".toList] = 18 := by decide
  have whole := load_append ["releases".toList, "download".toList] (slashed true (settled text))
  rw [List.cons_append, List.singleton_append] at whole
  omega

theorem rooted_of_follows (follows : (trail (name ++ releases ++ text)).Follows (trail name) text) :
    Rooted name := by
  obtain ⟨front, last, blanks, cut⟩ := exists_nameCut name
  have here : trail name = Trail.enterAll false (front.foldl (Trail.pass false) ⟨[], false⟩) [last] := by
    rw [trail, cut.settled, Trail.enterAll_append _ (by simp)]
  have there : trail (name ++ releases ++ text) =
      Trail.enterAll false ((front.foldl (Trail.pass false) ⟨[], false⟩).pass false (last ++ blanks))
        ("releases".toList :: "download".toList :: slashed true (settled text)) := by
    rw [trail_append_releases, cut.unbroken, List.append_assoc, Trail.enterAll_append _ (by simp),
      List.singleton_append, Trail.enterAll_cons (by simp)]
  have unslashed : (front.foldl (Trail.pass false) ⟨[], false⟩).Unslashed := by
    apply Trail.unslashed_foldl _ cut.free.2
    intro s there
    cases there
  rw [here, there] at follows
  apply cut.rooted_iff.mpr
  have none : blanks = [] := by
    by_contra ne
    exact Trail.not_follows_of_blanks unslashed cut.free.1 ne cut.low load_place_le follows
  refine ⟨none, fun dots => ?_⟩
  have weighs := follows.weight_eq
  rw [none, List.append_nil, Trail.enterAll_last, if_pos dots, Trail.weight_push] at weighs
  have most := ((front.foldl (Trail.pass false) ⟨[], false⟩).pass false last).weight_enterAll_le
    ("releases".toList :: "download".toList :: slashed true (settled text))
  have place := @load_place_le text
  omega

/-- Behind a name that is read the same everywhere, the path of the repository goes on. -/
theorem Rooted.trail_append (rooted : Rooted name) (text : List Char) : trail (name ++ releases ++ text) =
    Trail.enterAll false (((trail name).push "releases").push "download") (slashed true (settled text)) := by
  obtain ⟨front, last, blanks, cut⟩ := exists_nameCut name
  obtain ⟨rfl, plain⟩ := cut.rooted_iff.mp rooted
  have here : trail name = (front.foldl (Trail.pass false) ⟨[], false⟩).pass false last := by
    rw [trail, cut.settled, Trail.enterAll_append _ (by simp), Trail.enterAll_last, if_neg plain]
  have word {s : String} (plain : ¬ IsDots s.toList) (same : Percent.encode inPath s.toList = s.toList)
      (t : Trail) : t.pass false s.toList = t.push s := by
    rw [Trail.pass_plain plain, same, String.ofList_toList]
  rw [here, trail_append_releases, cut.unbroken, List.append_nil, List.append_assoc,
    Trail.enterAll_append _ (by simp), List.singleton_append, Trail.enterAll_cons (by simp),
    Trail.enterAll_cons (by simp), Trail.enterAll_cons (slashed_ne_nil _), word (by decide) (by decide),
    word (by decide) (by decide)]

theorem Literal.settled_eq (literal : Literal text) : settled text = text :=
  settled_eq_iff.mpr ⟨literal.whole, literal.shown⟩

theorem decode?_encode_inPath (cs : List Char) :
    Percent.decode? (Percent.encode inPath cs) = Percent.decode? cs := by
  rw [Percent.decode?, decodeOctets_encode_inPath, Percent.decode?]

theorem text_place (t : Trail) (rest : List Char) :
    ((t.push "releases").push "download").text ++ '/' :: rest = t.text ++ releases ++ rest := by
  have place : releases = '/' :: ("releases".toList ++ '/' :: ("download".toList ++ ['/'])) := by decide
  rw [Trail.text_push, Trail.text_push, place]
  simp

theorem follows_of_literal (rooted : Rooted name) (literal : Literal text) :
    (trail (name ++ releases ++ text)).Follows (trail name) text := by
  have plain : ∀ s ∈ slashed true text, ¬ IsDots s := by
    rw [slashed_eq_fields literal.straight]
    exact literal.named
  refine ⟨Percent.encode inPath text, ?_, ?_⟩
  · rw [rooted.trail_append, literal.settled_eq, Trail.text_enterAll_plain plain, map_straight literal.straight,
      text_place]
  · rw [decode?_encode_inPath, literal.unescaped]

theorem literal_of_follows (rooted : Rooted name)
    (follows : (trail (name ++ releases ++ text)).Follows (trail name) text) : Literal text := by
  have weighs := follows.weight_eq
  obtain ⟨rest, path, decoded⟩ := follows
  rw [rooted.trail_append] at weighs path
  have place : weight (((trail name).push "releases").push "download").done = weight (trail name).done + 18 := by
    rw [Trail.weight_push, Trail.weight_push, show extent "releases".toList = 8 by decide,
      show extent "download".toList = 8 by decide]
    omega
  have most := (((trail name).push "releases").push "download").weight_enterAll_le (slashed true (settled text))
  have load := load_settled_le text
  have plain : ∀ s ∈ slashed true (settled text), ¬ IsDots s := by
    intro s there dots
    have less := (((trail name).push "releases").push "download").weight_enterAll_lt ⟨s, there, dots⟩
    omega
  rw [load_slashed] at most
  have extents := extent_le ((settled text).map (straight true))
  have shorter := length_encode_le (settled_sublist text)
  have lengths := length_straight (settled text)
  have same : settled text = text := eq_of_length (settled_sublist text) (by omega)
  rw [same] at weighs plain path extents lengths most
  have unescaped : Percent.decodeOctets (Utf8.encode (text.map (straight true))) =
      Utf8.encode (text.map (straight true)) := by
    apply Percent.decodeOctets_of_length
    unfold extent at extents most
    omega
  have slashes : text.map (straight true) = text := by
    rw [Trail.text_enterAll_plain plain, text_place, List.append_cancel_left_eq] at path
    rw [← path, decode?_encode_inPath, Percent.decode?, unescaped, Utf8.decode_encode] at decoded
    exact Option.some.inj decoded
  have absent : '\\' ∉ text := by
    rw [← slashes]
    intro there
    obtain ⟨c, -, eq⟩ := List.mem_map.mp there
    unfold straight at eq
    split at eq
    · cases eq
    · next other =>
        rw [eq] at other
        exact other rfl
  have ends := settled_eq_iff.mp same
  constructor
  · exact ends.1
  · exact absent
  · exact ends.2
  · rw [slashes] at unescaped
    rw [Percent.decode?, unescaped, Utf8.decode_encode]
  · rw [← slashed_eq_fields absent]
    exact plain

/-- The path goes on behind that of the repository just when nothing is taken off the name or the text. -/
theorem follows_iff : (trail (name ++ releases ++ text)).Follows (trail name) text ↔
    Rooted name ∧ Literal text := by
  constructor
  · intro follows
    have rooted := rooted_of_follows follows
    exact ⟨rooted, literal_of_follows rooted follows⟩
  · rintro ⟨rooted, literal⟩
    exact follows_of_literal rooted literal

end

end LanguageHost.Url
