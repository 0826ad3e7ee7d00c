import Mathlib.Data.Finset.Card
import Mathlib.Data.List.Induction
import Mathlib.Data.List.TakeWhile
import LanguageHost.Proofs.Session.Caching

/-!
The cache of answers over whole runs. What is under a key is what was entered there last, unless it was
taken away since; and a key goes for want of room only when as many other keys have been used since as
the cache has room for. When a document is invalidated the entries of others stay, in the order of their use.
-/
namespace LanguageHost.ResponseCache

/-- What can be done to a cache. -/
inductive Act where
  | set (key : CacheKey) (type : ValueType) (value : Option Json)
  | get (key : CacheKey) (type : ValueType)
  | invalidate (key : CacheKey)
  | invalidateDocument (document : String)

def act (c : ResponseCache) : Act → ResponseCache
  | .set key type value => c.store key type value
  | .get key type => (c.get key type).2
  | .invalidate key => (c.invalidate key).2
  | .invalidateDocument document => (c.invalidateDocument document).2

def run (c : ResponseCache) (acts : List Act) : ResponseCache := acts.foldl act c

/-- The key that an act uses: it is entered, or found. -/
def used? (c : ResponseCache) : Act → Option CacheKey
  | .set key _ value => value.map fun _ => key
  | .get key _ => (c.find? key).map fun _ => key
  | .invalidate _ | .invalidateDocument _ => none

/-- The keys used in a run, the last first. -/
def recent : ResponseCache → List Act → List CacheKey
  | _, [] => []
  | c, a :: acts => (c.act a).recent acts ++ (c.used? a).toList

/-- The other keys used since a key was. -/
def rivals (recent : List CacheKey) (key : CacheKey) : Finset CacheKey :=
  (recent.takeWhile (· ≠ key)).toFinset

/-- The act puts another value under the key, or takes the one there away. -/
def Act.Replaces : Act → CacheKey → Prop
  | .set k _ value, key => value.isSome ∧ k = key
  | .get _ _, _ => False
  | .invalidate k, key => k = key
  | .invalidateDocument document, key => document = key.document

/-- The value last entered under a key, when nothing has taken it away since. -/
def Stands (acts : List Act) (key : CacheKey) (type : ValueType) (value : Json) : Prop :=
  ∃ before after, acts = before ++ .set key type (some value) :: after ∧ ∀ a ∈ after, ¬ a.Replaces key

variable {c : ResponseCache} {key k : CacheKey} {type : ValueType} {entry : CacheKey × CacheEntry}
  {acts : List Act} {a : Act} {value : Json} {recent : List CacheKey}

theorem run_concat (c : ResponseCache) (acts : List Act) (a : Act) :
    c.run (acts ++ [a]) = (c.run acts).act a := by
  simp [run]

theorem recent_concat (c : ResponseCache) (acts : List Act) (a : Act) :
    c.recent (acts ++ [a]) = ((c.run acts).used? a).toList ++ c.recent acts := by
  induction acts generalizing c with
  | nil => simp [ResponseCache.recent, run]
  | cons b acts ih => simp [ResponseCache.recent, run, ih (c.act b)]

/-! What stands under a key. -/

theorem stands_concat : Stands (acts ++ [a]) key type value ↔
    a = .set key type (some value) ∨ Stands acts key type value ∧ ¬ a.Replaces key := by
  constructor
  · rintro ⟨before, after, split, kept⟩
    induction after using List.reverseRecOn with
    | nil =>
      obtain ⟨-, last⟩ := List.append_inj' split rfl
      exact .inl (List.cons.inj last).1
    | append_singleton after b _ =>
      rw [← List.cons_append, ← List.append_assoc] at split
      obtain ⟨rfl, last⟩ := List.append_inj' split rfl
      obtain rfl := (List.cons.inj last).1
      right
      constructor
      · exact ⟨before, after, rfl, fun b inside => kept b (List.mem_append_left _ inside)⟩
      · exact kept a (by simp)
  · rintro (rfl | ⟨⟨before, after, rfl, kept⟩, stays⟩)
    · exact ⟨acts, [], rfl, by simp⟩
    · refine ⟨before, after ++ [a], by simp, ?_⟩
      intro b inside
      rcases List.mem_append.mp inside with inside | last
      · exact kept b inside
      · exact List.mem_singleton.mp last ▸ stays

theorem not_stands_nil : ¬ Stands [] key type value := by
  rintro ⟨before, after, split, -⟩
  simp at split

theorem Stands.unique {type' : ValueType} {value' : Json} (h : Stands acts key type value)
    (h' : Stands acts key type' value') : type = type' ∧ value = value' := by
  induction acts using List.reverseRecOn with
  | nil => exact absurd h not_stands_nil
  | append_singleton acts a ih =>
    rcases stands_concat.mp h with rfl | ⟨old, stays⟩
    · rcases stands_concat.mp h' with same | ⟨-, stays⟩
      · cases same
        exact ⟨rfl, rfl⟩
      · exact absurd ⟨rfl, rfl⟩ stays
    · rcases stands_concat.mp h' with rfl | ⟨old', -⟩
      · exact absurd ⟨rfl, rfl⟩ stays
      · exact ih old old'

/-! Finding. -/

theorem exists_find? (there : entry ∈ c.entries) : ∃ e, c.find? entry.1 = some e := by
  apply Option.ne_none_iff_exists'.mp
  intro absent
  have := List.lookup_eq_none_iff.mp absent entry there
  simp at this

theorem lookup_filter (kept : CacheKey → Bool) (k : CacheKey) (entries : List (CacheKey × CacheEntry)) :
    (entries.filter fun x => kept x.1).lookup k = if kept k then entries.lookup k else none := by
  induction entries with
  | nil => simp
  | cons entry entries ih =>
    obtain ⟨x, e⟩ := entry
    by_cases stays : kept x
    · rw [List.filter_cons_of_pos (by exact stays), List.lookup_cons, List.lookup_cons, ih]
      by_cases same : k = x
      · subst same
        simp [stays]
      · simp [beq_false_of_ne same]
    · rw [List.filter_cons_of_neg (by exact stays), ih]
      by_cases same : k = x
      · subst same
        simp [stays]
      · rw [List.lookup_cons, beq_false_of_ne same]

/-- Reading moves an entry, and leaves every value. -/
theorem find?_get (c : ResponseCache) (key : CacheKey) (type : ValueType) (k : CacheKey) :
    (c.get key type).2.find? k = c.find? k := by
  unfold get
  split
  · rfl
  · next e found =>
    by_cases same : k = key
    · subst same
      rw [found]
      simp [find?]
    · have other : (k == key) = false := beq_false_of_ne same
      have found := lookup_filter (· ≠ key) k c.entries
      rw [if_pos (by simpa using same)] at found
      simp only [find?, others, List.lookup_cons, other]
      exact found

theorem fst_get (c : ResponseCache) (key : CacheKey) (type : ValueType) : (c.get key type).1 =
    (c.find? key).bind fun e => if e.type = type.name then type.shape.read? e.value else none := by
  unfold get
  split
  · next absent => rw [absent, Option.bind_none]
  · next found => rw [found, Option.bind_some]

theorem get_found {e : CacheEntry} (found : c.find? key = some e) (same : e.type = type.name) :
    (c.get key type).1 = type.shape.read? e.value := by
  rw [fst_get, found, Option.bind_some, if_pos same]

/-! Rivals. -/

theorem takeWhile_cons (h : k ≠ key) (recent : List CacheKey) :
    (k :: recent).takeWhile (· ≠ key) = k :: recent.takeWhile (· ≠ key) := by
  simp [h]

theorem rivals_cons (h : k ≠ key) (recent : List CacheKey) :
    rivals (k :: recent) key = insert k (rivals recent key) := by
  unfold rivals
  rw [takeWhile_cons h, List.toFinset_cons]

/-! The invariant of a run: of two entries, the key of the one in front has been used since the key of the
other was. So there is no more in front of an entry than its rivals. -/

structure Sound (c : ResponseCache) (acts : List Act) (recent : List CacheKey) : Prop where
  room : 0 < c.capacity
  bounded : c.entries.length ≤ c.capacity
  ahead : c.entries.Pairwise fun x y => x.1 ∈ recent.takeWhile (· ≠ y.1)
  founded : ∀ entry ∈ c.entries, ∃ type value, Stands acts entry.1 type value ∧
    entry.2 = ⟨type.name, value.canonical⟩
  staying : ∀ key type value, Stands acts key type value → (rivals recent key).card < c.capacity →
    ∃ e, (key, e) ∈ c.entries

theorem sound_ofCapacity (n : Nat) : (ofCapacity n).Sound [] [] where
  room := by simp [ofCapacity]
  bounded := by simp [ofCapacity]
  ahead := .nil
  founded := by simp [ofCapacity]
  staying _ _ _ stands := absurd stands not_stands_nil

namespace Sound

theorem nodup_of_ahead {entries : List (CacheKey × CacheEntry)}
    (ahead : entries.Pairwise fun x y => x.1 ∈ recent.takeWhile (· ≠ y.1)) :
    (entries.map Prod.fst).Nodup := by
  apply List.pairwise_map.mpr
  apply ahead.imp
  intro x y used
  simpa using List.mem_takeWhile_imp used

/-- Entries in front of one are fewer than the rivals of its key and one more key. -/
theorem length_lt {front back : List (CacheKey × CacheEntry)}
    (ahead : (front ++ entry :: back).Pairwise fun x y => x.1 ∈ recent.takeWhile (· ≠ y.1))
    (others : ∀ x ∈ front, x.1 ≠ key) (different : key ≠ entry.1) :
    front.length < (rivals (key :: recent) entry.1).card := by
  obtain ⟨inFront, -, across⟩ := List.pairwise_append.mp ahead
  have fresh : key ∉ (front.map Prod.fst).toFinset := by
    simp only [List.mem_toFinset, List.mem_map, not_exists, not_and]
    exact others
  have within : insert key (front.map Prod.fst).toFinset ⊆ rivals (key :: recent) entry.1 := by
    rw [rivals_cons different]
    apply Finset.insert_subset_insert
    intro k inside
    obtain ⟨x, there, rfl⟩ := List.mem_map.mp (List.mem_toFinset.mp inside)
    exact List.mem_toFinset.mpr (across x there entry (by simp))
  calc front.length
      = (front.map Prod.fst).toFinset.card := by
          rw [List.toFinset_card_of_nodup (nodup_of_ahead inFront), List.length_map]
    _ < (insert key (front.map Prod.fst).toFinset).card := by
          rw [Finset.card_insert_of_notMem fresh]
          omega
    _ ≤ (rivals (key :: recent) entry.1).card := Finset.card_le_card within

/-- An entry comes to the front, and the last may go for it. -/
theorem front {e : CacheEntry} (h : c.Sound acts recent)
    (entered : ∃ type value, Stands (acts ++ [a]) key type value ∧ e = ⟨type.name, value.canonical⟩)
    (stays : ∀ k, k ≠ key → ¬ a.Replaces k)
    (known : ∀ k type value, k ≠ key → a ≠ .set k type (some value)) :
    Sound { c with entries := (key, e) :: (c.others key).take (c.capacity - 1) } (acts ++ [a])
      (key :: recent) := by
  have room := h.room
  have ahead : (c.others key).Pairwise fun x y => x.1 ∈ recent.takeWhile (· ≠ y.1) :=
    h.ahead.sublist List.filter_sublist
  constructor
  · exact room
  · simp only [List.length_cons, List.length_take]
    omega
  · apply List.pairwise_cons.mpr
    constructor
    · intro y there
      have different := (mem_others.mp (List.mem_of_mem_take there)).2
      rw [takeWhile_cons different.symm]
      exact List.mem_cons_self
    · apply List.Pairwise.imp_of_mem _ (ahead.sublist (List.take_sublist _ _))
      intro x y _ there used
      have different := (mem_others.mp (List.mem_of_mem_take there)).2
      rw [takeWhile_cons different.symm]
      exact List.mem_cons_of_mem _ used
  · intro entry there
    rcases List.mem_cons.mp there with rfl | there
    · exact entered
    · obtain ⟨old, different⟩ := mem_others.mp (List.mem_of_mem_take there)
      obtain ⟨type, value, stands, same⟩ := h.founded entry old
      exact ⟨type, value, stands_concat.mpr (.inr ⟨stands, stays _ different⟩), same⟩
  · intro k type value stands few
    by_cases same : k = key
    · subst same
      exact ⟨e, List.mem_cons_self⟩
    · have old : Stands acts k type value := by
        rcases stands_concat.mp stands with set | ⟨old, -⟩
        · exact absurd set (known k type value same)
        · exact old
      have fewer : (rivals recent k).card < c.capacity := by
        apply Nat.lt_of_le_of_lt _ few
        apply Finset.card_le_card
        rw [rivals_cons (Ne.symm same)]
        exact Finset.subset_insert _ _
      obtain ⟨e', there⟩ := h.staying k type value old fewer
      obtain ⟨front, back, split⟩ := List.append_of_mem (mem_others.mpr ⟨there, same⟩)
      have others : ∀ x ∈ front, x.1 ≠ key := by
        intro x inside
        apply (mem_others (c := c)).mp _ |>.2
        rw [split]
        exact List.mem_append_left _ inside
      have few' := length_lt (split ▸ ahead) others (Ne.symm same)
      refine ⟨e', List.mem_cons_of_mem _ ?_⟩
      dsimp only at few few' ⊢
      rw [split, List.take_append, List.take_of_length_le (by omega)]
      obtain ⟨rest, enough⟩ := Nat.exists_eq_add_of_lt (show front.length < c.capacity - 1 by omega)
      rw [show c.capacity - 1 - front.length = rest + 1 by omega]
      simp

/-- Entries go, when something has taken their values away. -/
theorem drop {kept : CacheKey × CacheEntry → Bool} (h : c.Sound acts recent)
    (unset : ∀ key type value, a ≠ .set key type (some value))
    (gone : ∀ x, kept x = true ↔ ¬ a.Replaces x.1) :
    Sound { c with entries := c.entries.filter kept } (acts ++ [a]) recent := by
  constructor
  · exact h.room
  · exact Nat.le_trans (List.length_filter_le _ _) h.bounded
  · exact h.ahead.sublist List.filter_sublist
  · intro entry there
    obtain ⟨old, stays⟩ := List.mem_filter.mp there
    obtain ⟨type, value, stands, same⟩ := h.founded entry old
    exact ⟨type, value, stands_concat.mpr (.inr ⟨stands, (gone entry).mp stays⟩), same⟩
  · intro k type value stands few
    rcases stands_concat.mp stands with set | ⟨old, stays⟩
    · exact absurd set (unset k type value)
    · obtain ⟨e, there⟩ := h.staying k type value old few
      exact ⟨e, List.mem_filter.mpr ⟨there, (gone (k, e)).mpr stays⟩⟩

/-- Nothing is done to the entries. -/
theorem idle (h : c.Sound acts recent) (unset : ∀ key type value, a ≠ .set key type (some value))
    (stays : ∀ key, ¬ a.Replaces key) : c.Sound (acts ++ [a]) recent := by
  have kept : Sound { c with entries := c.entries.filter fun _ => true } (acts ++ [a]) recent :=
    h.drop unset (by simp [stays])
  rwa [List.filter_true] at kept

theorem take_others {e : CacheEntry} (h : c.Sound acts recent) (found : c.find? key = some e) :
    (c.others key).take (c.capacity - 1) = c.others key := by
  apply List.take_of_length_le
  have fewer : (c.others key).length < c.entries.length := by
    apply List.length_filter_lt_length_iff_exists.mpr
    exact ⟨(key, e), mem_of_find? found, by simp⟩
  have := h.bounded
  omega

theorem get (h : c.Sound acts recent) (key : CacheKey) (type : ValueType) :
    Sound (c.get key type).2 (acts ++ [.get key type]) ((c.used? (.get key type)).toList ++ recent) := by
  cases found : c.find? key with
  | none =>
    have same : (c.get key type).2 = c := by
      unfold ResponseCache.get
      rw [found]
    rw [same]
    simp only [used?, found]
    apply h.idle
    · intro _ _ _ same
      cases same
    · exact fun _ replaced => replaced
  | some e =>
    have same : (c.get key type).2 = { c with entries := (key, e) :: c.others key } := by
      unfold ResponseCache.get
      rw [found]
    rw [same, ← h.take_others found]
    simp only [used?, found]
    apply h.front
    · obtain ⟨type', value, stands, same⟩ := h.founded _ (mem_of_find? found)
      exact ⟨type', value, stands_concat.mpr (.inr ⟨stands, id⟩), same⟩
    · exact fun _ _ replaced => replaced
    · intro _ _ _ _ same
      cases same

theorem act (h : c.Sound acts recent) (a : Act) :
    Sound (c.act a) (acts ++ [a]) ((c.used? a).toList ++ recent) := by
  cases a with
  | set key type value =>
    cases value with
    | none =>
      apply h.idle
      · intro _ _ _ same
        cases same
      · rintro _ ⟨entered, -⟩
        cases entered
    | some value =>
      apply h.front
      · exact ⟨type, value, stands_concat.mpr (.inl rfl), rfl⟩
      · rintro k different ⟨-, same⟩
        exact different same.symm
      · intro k type' value' different same
        cases same
        exact different rfl
  | get key type => exact h.get key type
  | invalidate key =>
    apply h.drop
    · intro _ _ _ same
      cases same
    · intro x
      rw [decide_eq_true_iff]
      exact not_congr eq_comm
  | invalidateDocument document =>
    apply h.drop
    · intro _ _ _ same
      cases same
    · intro x
      rw [decide_eq_true_iff]
      exact not_congr eq_comm

theorem run (n : Nat) (acts : List Act) :
    ((ofCapacity n).run acts).Sound acts ((ofCapacity n).recent acts) := by
  induction acts using List.reverseRecOn with
  | nil => exact sound_ofCapacity n
  | append_singleton acts a ih =>
    rw [run_concat, recent_concat]
    exact ih.act a

end Sound

theorem capacity_act (c : ResponseCache) (a : Act) : (c.act a).capacity = c.capacity := by
  cases a with
  | set key type value => cases value <;> rfl
  | get key type =>
    simp only [act, get]
    split <;> rfl
  | invalidate key => rfl
  | invalidateDocument document => rfl

theorem capacity_run (n : Nat) (acts : List Act) : ((ofCapacity n).run acts).capacity = max n 1 := by
  induction acts using List.reverseRecOn with
  | nil => rfl
  | append_singleton acts a ih => rw [run_concat, capacity_act, ih]

/-- A value that is got is the one last entered under the key, by its type, and nothing has taken it
away. -/
theorem Sound.of_get {j : Json} (h : c.Sound acts recent) (got : (c.get key type).1 = some j) :
    ∃ own value, Stands acts key own value ∧ own.name = type.name ∧
      type.shape.read? value.canonical = some j := by
  obtain ⟨e, there, same, read⟩ := get_some got
  obtain ⟨own, value, stands, rfl⟩ := h.founded _ there
  exact ⟨own, value, stands, same, read⟩

/-- What was entered last is got while there have been fewer rivals than there is room. -/
theorem Sound.get_of_stands {own : ValueType} {j : Json} (h : c.Sound acts recent)
    (stands : Stands acts key own value) (same : own.name = type.name)
    (read : type.shape.read? value.canonical = some j) (few : (rivals recent key).card < c.capacity) :
    (c.get key type).1 = some j := by
  obtain ⟨_, there⟩ := h.staying key own value stands few
  obtain ⟨e, found⟩ := exists_find? there
  obtain ⟨own', value', stands', rfl⟩ := h.founded _ (mem_of_find? found)
  obtain ⟨rfl, rfl⟩ := stands.unique stands'
  rw [get_found found same]
  exact read

/-- The cache over a whole run. It holds no more than it has room for, and no key twice. What is got by a
type is the value last entered under the key, if that was by this type and nothing has taken it away; it is
got while fewer other keys have been used since this one was than there is room for. A value that has no
JSON and a reading of whatever type change nothing that stands. -/
theorem run_keeps_last (n : Nat) (acts : List Act) :
    let c := (ofCapacity n).run acts
    c.size ≤ max n 1 ∧ (c.entries.map Prod.fst).Nodup ∧
      (∀ key type j, (c.get key type).1 = some j →
        ∃ own value, Stands acts key own value ∧ own.name = type.name ∧
          type.shape.read? value.canonical = some j) ∧
      (∀ key type own value j, Stands acts key own value → own.name = type.name →
        type.shape.read? value.canonical = some j →
        (rivals ((ofCapacity n).recent acts) key).card < max n 1 → (c.get key type).1 = some j) ∧
      (∀ key type, c.store key type none = c) ∧
      ∀ key type k, (c.get key type).2.find? k = c.find? k := by
  intro c
  have sound : c.Sound acts ((ofCapacity n).recent acts) := Sound.run n acts
  have capacity : c.capacity = max n 1 := capacity_run n acts
  refine ⟨?_, Sound.nodup_of_ahead sound.ahead, ?_, ?_, ?_, c.find?_get⟩
  · exact capacity ▸ sound.bounded
  · intro key type j got
    exact sound.of_get got
  · intro key type own value j stands same read few
    rw [← capacity] at few
    exact sound.get_of_stands stands same read few
  · intro key type
    rfl

/-! A document that is invalidated. Its entries are taken out one by one, and the others stay where they are;
so whatever goes afterwards, for want of room, goes in the order in which it was used before. -/

/-- The keys of a document. -/
def keysOf (c : ResponseCache) (document : String) : List CacheKey :=
  (c.entries.map Prod.fst).filter fun k => k.document = document

theorem mem_keysOf {document : String} (there : entry ∈ c.entries) :
    entry.1 ∈ c.keysOf document ↔ entry.1.document = document := by
  simp only [keysOf, List.mem_filter, decide_eq_true_eq, and_iff_right_iff_imp]
  exact fun _ => List.mem_map_of_mem there

theorem foldl_invalidate (c : ResponseCache) (keys : List CacheKey) :
    keys.foldl (fun c key => (c.invalidate key).2) c =
      { c with entries := c.entries.filter fun x => x.1 ∉ keys } := by
  induction keys generalizing c with
  | nil => simp
  | cons key keys ih =>
    rw [List.foldl_cons, ih]
    simp only [invalidate, others, List.filter_filter, List.mem_cons, not_or, Bool.decide_and, Bool.and_comm]

/-- All entries of a document go at once as they would one after the other. -/
theorem invalidateDocument_eq_foldl (c : ResponseCache) (document : String) :
    c.invalidateDocument document = ((c.keysOf document).length,
      (c.keysOf document).foldl (fun c key => (c.invalidate key).2) c) := by
  have kept : (c.entries.filter fun x => x.1 ∉ c.keysOf document) =
      c.entries.filter fun x => x.1.document ≠ document := by
    apply List.filter_congr
    intro x there
    simp only [mem_keysOf there]
  have count : (c.keysOf document).length + (c.entries.filter fun x => x.1.document ≠ document).length =
      c.entries.length := by
    rw [keysOf, List.filter_map, List.length_map, ← List.countP_eq_length_filter, ← List.countP_eq_length_filter]
    simpa [Function.comp_def] using
      (List.length_eq_countP_add_countP (fun x : CacheKey × CacheEntry => x.1.document = document)).symm
  rw [foldl_invalidate, kept]
  exact Prod.ext (Nat.sub_eq_of_eq_add count.symm) rfl

theorem find?_invalidateDocument (c : ResponseCache) (document : String) (k : CacheKey) :
    (c.invalidateDocument document).2.find? k = if k.document = document then none else c.find? k := by
  have found := lookup_filter (fun k => decide (k.document ≠ document)) k c.entries
  rw [invalidateDocument, find?]
  refine found.trans ?_
  by_cases same : k.document = document <;> simp [same, find?]

/-! New keys. -/

/-- Entries have come in front of others, which have gone from the end as far as there was no room. -/
def Displaces (c : ResponseCache) (old : List (CacheKey × CacheEntry)) (entered : Finset CacheKey) : Prop :=
  ∃ front, c.entries = front ++ old.take (c.capacity - entered.card) ∧ (front.map Prod.fst).Nodup ∧
    front.length = min entered.card c.capacity ∧ ∀ x ∈ front, x.1 ∈ entered

theorem displaces_self (bounded : c.entries.length ≤ c.capacity) : c.Displaces c.entries ∅ := by
  refine ⟨[], ?_, List.nodup_nil, by simp, by simp⟩
  rw [List.nil_append, List.take_of_length_le (by simpa using bounded)]

/-- What is left in front when a key is entered again. -/
theorem length_others {front : List (CacheKey × CacheEntry)} (distinct : (front.map Prod.fst).Nodup)
    (key : CacheKey) : (front.filter fun x => x.1 ≠ key).length =
      if key ∈ front.map Prod.fst then front.length - 1 else front.length := by
  have keys : (front.filter fun x => x.1 ≠ key).map Prod.fst = (front.map Prod.fst).erase key := by
    rw [distinct.erase_eq_filter, List.filter_map]
    congr 1
    apply List.filter_congr
    intro x _
    by_cases same : x.1 = key <;> simp [same]
  rw [← List.length_map (f := Prod.fst), keys, List.length_erase, List.length_map]

/-- Where all that was entered is still there, a key that was entered is among it. -/
theorem mem_front {front : List (CacheKey × CacheEntry)} {entered : Finset CacheKey}
    (distinct : (front.map Prod.fst).Nodup) (within : ∀ x ∈ front, x.1 ∈ entered)
    (all : front.length = entered.card) (there : key ∈ entered) : key ∈ front.map Prod.fst := by
  have subset : (front.map Prod.fst).toFinset ⊆ entered := by
    intro k inside
    obtain ⟨x, listed, rfl⟩ := List.mem_map.mp (List.mem_toFinset.mp inside)
    exact within x listed
  have card : (front.map Prod.fst).toFinset.card = entered.card := by
    rw [List.toFinset_card_of_nodup distinct, List.length_map, all]
  rw [← Finset.eq_of_subset_of_card_le subset card.ge] at there
  exact List.mem_toFinset.mp there

theorem Displaces.set {old : List (CacheKey × CacheEntry)} {entered : Finset CacheKey}
    (h : c.Displaces old entered) (room : 0 < c.capacity) (fresh : ∀ x ∈ old, x.1 ≠ key) (type : ValueType)
    (value : Json) : (c.set key type value).Displaces old (insert key entered) := by
  obtain ⟨front, split, distinct, length, within⟩ := h
  have rest : (old.take (c.capacity - entered.card)).filter (fun x => x.1 ≠ key) =
      old.take (c.capacity - entered.card) := by
    apply List.filter_eq_self.mpr
    intro x there
    simpa using fresh x (List.mem_of_mem_take there)
  have others : c.others key =
      (front.filter fun x => x.1 ≠ key) ++ old.take (c.capacity - entered.card) := by
    rw [ResponseCache.others, split, List.filter_append, rest]
  have fewer := length_others distinct key
  -- a key that was entered before stands in front, unless newer ones have pushed it out; then none is old
  have counts : min (front.filter fun x => x.1 ≠ key).length (c.capacity - 1) + 1 =
        min (insert key entered).card c.capacity ∧
      min (c.capacity - 1 - (front.filter fun x => x.1 ≠ key).length) (c.capacity - entered.card) =
        c.capacity - (insert key entered).card := by
    by_cases known : key ∈ entered
    · rw [Finset.insert_eq_of_mem known]
      have some := Finset.card_pos.mpr ⟨key, known⟩
      by_cases all : front.length = entered.card
      · rw [if_pos (mem_front distinct within all known)] at fewer
        omega
      · split at fewer <;> omega
    · rw [Finset.card_insert_of_notMem known]
      have absent : key ∉ front.map Prod.fst := by
        intro listed
        obtain ⟨x, there, rfl⟩ := List.mem_map.mp listed
        exact known (within x there)
      rw [if_neg absent] at fewer
      omega
  refine ⟨(key, ⟨type.name, value.canonical⟩) ::
    (front.filter fun x => x.1 ≠ key).take (c.capacity - 1), ?_, ?_, ?_, ?_⟩
  · simp only [ResponseCache.set, others, List.take_append, List.take_take, counts.2, List.cons_append]
  · rw [List.map_cons, List.nodup_cons]
    constructor
    · intro listed
      obtain ⟨x, there, same⟩ := List.mem_map.mp listed
      have other := (List.mem_filter.mp (List.mem_of_mem_take there)).2
      exact absurd same (by simpa using other)
    · have kept : List.Sublist ((front.filter fun x => x.1 ≠ key).take (c.capacity - 1)) front :=
        (List.take_sublist _ _).trans List.filter_sublist
      exact distinct.sublist (kept.map _)
  · rw [List.length_cons, List.length_take, Nat.min_comm]
    exact counts.1
  · intro x there
    rcases List.mem_cons.mp there with rfl | there
    · exact Finset.mem_insert_self _ _
    · have inside := (List.mem_filter.mp (List.mem_of_mem_take there)).1
      exact Finset.mem_insert_of_mem (within x inside)

/-- The act enters a key that is not there, if it enters one. -/
def Enters (c : ResponseCache) (a : Act) : Prop :=
  ∃ key type value, a = .set key type value ∧ ∀ x ∈ c.entries, x.1 ≠ key

theorem displaces_run (room : 0 < c.capacity) (bounded : c.entries.length ≤ c.capacity) {sets : List Act}
    (new : ∀ a ∈ sets, c.Enters a) :
    (c.run sets).capacity = c.capacity ∧ (c.run sets).Displaces c.entries (c.recent sets).toFinset := by
  induction sets using List.reverseRecOn with
  | nil => exact ⟨rfl, displaces_self bounded⟩
  | append_singleton sets a ih =>
    have before : ∀ a ∈ sets, c.Enters a := fun a there => new a (List.mem_append_left _ there)
    obtain ⟨capacity, displaces⟩ := ih before
    obtain ⟨key, type, value, rfl, fresh⟩ := new a (List.mem_append_right _ (List.mem_singleton_self _))
    rw [run_concat, recent_concat]
    refine ⟨(capacity_act _ _).trans capacity, ?_⟩
    cases value with
    | none => exact displaces
    | some value =>
      rw [← capacity] at room
      have entered := displaces.set room fresh type value
      rwa [← List.toFinset_cons] at entered

/-- A document is invalidated, whatever was done to the cache before. Just its own entries go, as they would one
after the other, and their number is told; every other key is read as before. The entries that are left stand in
the order of their last use; and when new keys are entered afterwards they go in that order, the longest unused
first, one for each new key for which there is no room any more. -/
theorem invalidation_leaves_others (n : Nat) (acts : List Act) (document : String) :
    let c := (ofCapacity n).run acts
    let left := (c.invalidateDocument document).2
    c.invalidateDocument document = ((c.keysOf document).length,
      (c.keysOf document).foldl (fun c key => (c.invalidate key).2) c) ∧
    (c.invalidateDocument document).1 + left.size = c.size ∧
    (∀ entry, entry ∈ left.entries ↔ entry ∈ c.entries ∧ entry.1.document ≠ document) ∧
    (∀ key type, (left.get key type).1 =
      if key.document = document then none else (c.get key type).1) ∧
    (left.entries.Pairwise fun x y => x.1 ∈ ((ofCapacity n).recent acts).takeWhile (· ≠ y.1)) ∧
    ∀ sets, (∀ a ∈ sets, left.Enters a) →
      let entered := (left.recent sets).toFinset
      (∃ front, (left.run sets).entries = front ++ left.entries.take (max n 1 - entered.card) ∧
        ∀ x ∈ front, x.1 ∈ entered) ∧
      (left.size + entered.card ≤ max n 1 → left.entries <:+ (left.run sets).entries) := by
  intro c left
  have sound : c.Sound acts ((ofCapacity n).recent acts) := Sound.run n acts
  have capacity : left.capacity = max n 1 := capacity_run n acts
  have bounded : left.entries.length ≤ left.capacity :=
    Nat.le_trans (List.length_filter_le _ _) sound.bounded
  refine ⟨c.invalidateDocument_eq_foldl document, ?_, ?_, ?_, ?_, ?_⟩
  · exact Nat.sub_add_cancel (List.length_filter_le _ _)
  · intro entry
    simp [left, invalidateDocument]
  · intro key type
    rw [fst_get, fst_get, find?_invalidateDocument]
    split <;> rfl
  · exact sound.ahead.sublist List.filter_sublist
  · intro sets new entered
    obtain ⟨same, front, split, -, -, within⟩ := displaces_run (c := left) sound.room bounded new
    rw [same, capacity] at split
    refine ⟨⟨front, split, within⟩, fun enough => ?_⟩
    have whole : left.entries.length ≤ max n 1 - entered.card := Nat.le_sub_of_add_le enough
    rw [split, List.take_of_length_le whole]
    exact List.suffix_append _ _

end LanguageHost.ResponseCache
