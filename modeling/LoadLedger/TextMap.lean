import LoadLedger.Text

/-! # Finite maps keyed by texts

A map is the list of its entries in increasing order of keys. The order is part of the type, so
two maps with the same lookups are equal, however they were built.
-/
namespace LoadLedger

structure TextMap (β : Type) where
  entries : List (Text × β)
  sorted : entries.Pairwise (fun a b => Text.before a.1 b.1 = true)
  deriving DecidableEq

namespace TextMap
variable {β γ : Type}

def empty : TextMap β := ⟨[], List.Pairwise.nil⟩

instance : EmptyCollection (TextMap β) := ⟨empty⟩
instance : Inhabited (TextMap β) := ⟨empty⟩

def findEntry (key : Text) : List (Text × β) → Option β
  | [] => none
  | (k, v) :: rest => if k = key then some v else findEntry key rest

def insertEntry (key : Text) (value : β) : List (Text × β) → List (Text × β)
  | [] => [(key, value)]
  | (k, v) :: rest =>
    if Text.before key k then (key, value) :: (k, v) :: rest
    else if key = k then (key, value) :: rest
    else (k, v) :: insertEntry key value rest

theorem mem_insertEntry {key : Text} {value : β} {l : List (Text × β)} {p : Text × β}
    (h : p ∈ insertEntry key value l) : p = (key, value) ∨ p ∈ l := by
  induction l with
  | nil => simpa [insertEntry] using h
  | cons q rest ih =>
    simp only [insertEntry] at h
    split at h
    · simpa using h
    · split at h
      · rcases List.mem_cons.1 h with h | h
        · exact .inl h
        · exact .inr (List.mem_cons_of_mem _ h)
      · rcases List.mem_cons.1 h with h | h
        · exact .inr (h ▸ List.mem_cons_self)
        · exact (ih h).imp id (List.mem_cons_of_mem _)

theorem sorted_insertEntry (key : Text) (value : β) {l : List (Text × β)}
    (hl : l.Pairwise (fun a b => Text.before a.1 b.1 = true)) :
    (insertEntry key value l).Pairwise (fun a b => Text.before a.1 b.1 = true) := by
  induction l with
  | nil => simp [insertEntry]
  | cons q rest ih =>
    obtain ⟨hq, hrest⟩ := List.pairwise_cons.1 hl
    simp only [insertEntry]
    split
    · rename_i hlt
      refine List.pairwise_cons.2 ⟨fun p hp => ?_, hl⟩
      rcases List.mem_cons.1 hp with rfl | hp
      · exact hlt
      · exact Text.before_trans hlt (hq p hp)
    · split
      · rename_i heq
        exact List.pairwise_cons.2 ⟨fun p hp => by simpa [heq] using hq p hp, hrest⟩
      · rename_i hnlt hne
        refine List.pairwise_cons.2 ⟨fun p hp => ?_, ih hrest⟩
        rcases mem_insertEntry hp with rfl | hp
        · cases hk : Text.before q.1 key with
          | true => rfl
          | false => exact absurd (Text.eq_of_not_before (by simpa using hnlt) hk) hne
        · exact hq p hp

def find? (m : TextMap β) (key : Text) : Option β := findEntry key m.entries

def contains (m : TextMap β) (key : Text) : Bool := (m.find? key).isSome

def insert (m : TextMap β) (key : Text) (value : β) : TextMap β :=
  ⟨insertEntry key value m.entries, sorted_insertEntry key value m.sorted⟩

/-- Keeps and changes each value as told; the keys stay where they are. -/
def filterMap (f : Text → β → Option γ) (m : TextMap β) : TextMap γ where
  entries := m.entries.filterMap fun (k, v) => (f k v).map (k, ·)
  sorted := by
    refine List.Pairwise.filterMap _ (fun a b hab c hc d hd => ?_) m.sorted
    obtain ⟨_, _, rfl⟩ := Option.map_eq_some_iff.1 hc
    obtain ⟨_, _, rfl⟩ := Option.map_eq_some_iff.1 hd
    exact hab

def filter (keep : Text → β → Bool) (m : TextMap β) : TextMap β where
  entries := m.entries.filter fun (k, v) => keep k v
  sorted := m.sorted.filter _

def map (f : β → γ) (m : TextMap β) : TextMap γ where
  entries := m.entries.map fun (k, v) => (k, f v)
  sorted := List.pairwise_map.2 m.sorted

def size (m : TextMap β) : Nat := m.entries.length

def isEmpty (m : TextMap β) : Bool := m.entries.isEmpty

def keys (m : TextMap β) : List Text := m.entries.map (·.1)

/-- Later entries replace earlier ones with the same key. -/
def ofList (l : List (Text × β)) : TextMap β :=
  l.foldl (fun m (k, v) => m.insert k v) empty

theorem findEntry_insertEntry (key k : Text) (value : β) (l : List (Text × β)) :
    findEntry k (insertEntry key value l) = if key = k then some value else findEntry k l := by
  induction l with
  | nil => simp [insertEntry, findEntry]
  | cons p rest ih =>
    obtain ⟨q, v⟩ := p
    simp only [insertEntry]
    split
    · simp [findEntry]
    · split
      · rename_i hq
        subst hq
        simp only [findEntry]
        split <;> rfl
      · rename_i hne
        simp only [findEntry, ih]
        split
        · rename_i hqk
          subst hqk
          rw [if_neg hne]
        · rfl

theorem findEntry_of_mem {k : Text} {v : β} {l : List (Text × β)}
    (hl : l.Pairwise (fun a b => Text.before a.1 b.1 = true)) (h : (k, v) ∈ l) :
    findEntry k l = some v := by
  induction l with
  | nil => simp at h
  | cons p rest ih =>
    obtain ⟨q, w⟩ := p
    obtain ⟨hq, hrest⟩ := List.pairwise_cons.1 hl
    rcases List.mem_cons.1 h with h | h
    · obtain ⟨rfl, rfl⟩ := Prod.mk.injEq .. ▸ h
      simp [findEntry]
    · have hne : q ≠ k := fun hqk => by
        have hb := hq _ h
        simp [hqk, Text.before_irrefl] at hb
      simp only [findEntry, if_neg hne]
      exact ih hrest h

theorem mem_of_findEntry {k : Text} {v : β} {l : List (Text × β)} (h : findEntry k l = some v) :
    (k, v) ∈ l := by
  induction l with
  | nil => simp [findEntry] at h
  | cons p rest ih =>
    obtain ⟨q, w⟩ := p
    simp only [findEntry] at h
    split at h
    · rename_i hqk
      obtain rfl := Option.some.inj h
      exact hqk ▸ List.mem_cons_self
    · exact List.mem_cons_of_mem _ (ih h)

theorem find?_eq_some_iff {m : TextMap β} {k : Text} {v : β} :
    m.find? k = some v ↔ (k, v) ∈ m.entries :=
  ⟨mem_of_findEntry, findEntry_of_mem m.sorted⟩

@[simp] theorem find?_empty (k : Text) : (empty : TextMap β).find? k = none := rfl

theorem find?_insert (m : TextMap β) (key k : Text) (value : β) :
    (m.insert key value).find? k = if key = k then some value else m.find? k :=
  findEntry_insertEntry key k value m.entries

theorem find?_filterMap (f : Text → β → Option γ) (m : TextMap β) (k : Text) :
    (m.filterMap f).find? k = (m.find? k).bind (f k) := by
  apply Option.ext
  intro w
  rw [find?_eq_some_iff, Option.bind_eq_some_iff]
  simp only [filterMap, List.mem_filterMap, find?_eq_some_iff]
  constructor
  · rintro ⟨⟨q, v⟩, hmem, h⟩
    obtain ⟨u, hu, he⟩ := Option.map_eq_some_iff.1 h
    obtain ⟨rfl, rfl⟩ := Prod.mk.injEq .. ▸ he
    exact ⟨v, hmem, hu⟩
  · rintro ⟨v, hmem, hv⟩
    exact ⟨(k, v), hmem, by simp [hv]⟩

theorem find?_filter (keep : Text → β → Bool) (m : TextMap β) (k : Text) :
    (m.filter keep).find? k = (m.find? k).filter (keep k) := by
  apply Option.ext
  intro w
  rw [find?_eq_some_iff, Option.filter_eq_some_iff, find?_eq_some_iff]
  simp [filter, List.mem_filter]

theorem find?_map (f : β → γ) (m : TextMap β) (k : Text) :
    (m.map f).find? k = (m.find? k).map f := by
  apply Option.ext
  intro w
  rw [find?_eq_some_iff, Option.map_eq_some_iff]
  simp only [map, List.mem_map, find?_eq_some_iff, Prod.exists, Prod.mk.injEq]
  constructor
  · rintro ⟨q, v, hmem, rfl, hw⟩
    exact ⟨v, hmem, hw⟩
  · rintro ⟨v, hmem, hw⟩
    exact ⟨k, v, hmem, rfl, hw⟩

theorem ext_find? {m n : TextMap β} (h : ∀ k, m.find? k = n.find? k) : m = n := by
  have hmem (k : Text) (v : β) : (k, v) ∈ m.entries ↔ (k, v) ∈ n.entries := by
    rw [← find?_eq_some_iff, ← find?_eq_some_iff, h]
  obtain ⟨l, hl⟩ := m
  obtain ⟨l', hl'⟩ := n
  simp only at hmem
  suffices l = l' by subst this; rfl
  clear h
  induction l generalizing l' with
  | nil =>
    cases l' with
    | nil => rfl
    | cons q _ => exact absurd ((hmem q.1 q.2).2 List.mem_cons_self) (by simp)
  | cons p rest ih =>
    cases l' with
    | nil => exact absurd ((hmem p.1 p.2).1 List.mem_cons_self) (by simp)
    | cons q rest' =>
      obtain ⟨hp, hrest⟩ := List.pairwise_cons.1 hl
      obtain ⟨hq, hrest'⟩ := List.pairwise_cons.1 hl'
      have hpq : p = q := by
        rcases List.mem_cons.1 ((hmem p.1 p.2).1 List.mem_cons_self) with h | h
        · exact h
        · rcases List.mem_cons.1 ((hmem q.1 q.2).2 List.mem_cons_self) with h' | h'
          · exact h'.symm
          · have hb := Text.before_trans (hq _ h) (hp _ h')
            simp [Text.before_irrefl] at hb
      subst hpq
      rw [ih hrest rest' hrest' fun k v => ?_]
      have hm := hmem k v
      simp only [List.mem_cons] at hm
      constructor
      · intro hk
        refine (hm.1 (.inr hk)).resolve_left fun he => ?_
        have hb := hp _ hk
        simp [← he, Text.before_irrefl] at hb
      · intro hk
        refine (hm.2 (.inr hk)).resolve_left fun he => ?_
        have hb := hq _ hk
        simp [← he, Text.before_irrefl] at hb

end TextMap

/-- A finite set of texts, in increasing order. -/
abbrev TextSet := TextMap Unit

namespace TextSet

def add (s : TextSet) (t : Text) : TextSet := TextMap.insert s t ()

def ofList (l : List Text) : TextSet := l.foldl add TextMap.empty

def union (s t : TextSet) : TextSet := t.keys.foldl add s

end TextSet
end LoadLedger
