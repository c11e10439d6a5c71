import LoadLedger.TextMap

/-! # Keys and membership of finite maps

Everything about a map is read off its look-ups: which keys it has, whether it is empty, and what
entering a list of entries one by one makes of it.
-/
namespace LoadLedger

theorem Text.ne_of_before {s t : Text} (h : before s t = true) : s ≠ t := by
  rintro rfl
  rw [before_irrefl] at h
  cases h

theorem Text.not_before_of_before {s t : Text} (h : before s t = true) : before t s = false := by
  cases hts : before t s with
  | false => rfl
  | true =>
    have hself := before_trans h hts
    rw [before_irrefl] at hself
    cases hself

namespace TextMap
variable {β γ : Type}

theorem contains_iff {m : TextMap β} {k : Text} : m.contains k = true ↔ ∃ v, m.find? k = some v := by
  rw [contains,Option.isSome_iff_exists]

theorem contains_iff_mem_keys {m : TextMap β} {k : Text} : m.contains k = true ↔ k ∈ m.keys := by
  simp [contains_iff,find?_eq_some_iff,keys]

theorem keys_ne_nil {m : TextMap β} {k : Text} (h : m.contains k = true) : m.keys ≠ [] :=
  List.ne_nil_of_mem (contains_iff_mem_keys.1 h)

theorem contains_insert (m : TextMap β) (key k : Text) (value : β) :
    (m.insert key value).contains k = (decide (key = k) || m.contains k) := by
  by_cases h : key = k <;> simp [contains,find?_insert,h]

theorem isEmpty_iff {m : TextMap β} : m.isEmpty = true ↔ ∀ k, m.contains k = false := by
  rw [isEmpty,List.isEmpty_iff]
  constructor
  · intro h k
    simp [contains,find?,h,findEntry]
  · intro h
    apply List.eq_nil_iff_forall_not_mem.2
    intro p hp
    have hk := h p.1
    rw [contains,find?_eq_some_iff.2 hp] at hk
    cases hk

theorem keys_pairwise (m : TextMap β) : m.keys.Pairwise (fun a b => Text.before a b = true) :=
  List.pairwise_map.2 m.sorted

theorem nodup_keys (m : TextMap β) : m.keys.Nodup := m.keys_pairwise.imp Text.ne_of_before

theorem insert_eq_self {m : TextMap β} {key : Text} {value : β} (h : m.find? key = some value) :
    m.insert key value = m := by
  apply ext_find?
  intro k
  rw [find?_insert]
  split
  · rename_i hk
    rw [← hk,h]
  · rfl

theorem insert_insert (m : TextMap β) (key : Text) (value value' : β) :
    (m.insert key value).insert key value' = m.insert key value' := by
  apply ext_find?
  intro k
  simp only [find?_insert]
  split <;> rfl

/-- Entries with different keys, entered one by one, can all be found. -/
theorem find?_foldl_insert {l : List (Text × β)}
    (hl : l.Pairwise (fun a b => Text.before a.1 b.1 = true)) (m : TextMap β) (k : Text) :
    (l.foldl (fun m p => m.insert p.1 p.2) m).find? k = (findEntry k l).or (m.find? k) := by
  induction l generalizing m with
  | nil => rfl
  | cons p l ih =>
    obtain ⟨hp,hrest⟩ := List.pairwise_cons.1 hl
    rw [List.foldl_cons,ih hrest,find?_insert,findEntry]
    split
    · rename_i hk
      have hnone : findEntry k l = none := by
        cases hfind : findEntry k l with
        | none => rfl
        | some v =>
          have hb := hp _ (mem_of_findEntry hfind)
          simp [hk,Text.before_irrefl] at hb
      simp [hnone]
    · rfl

theorem foldl_insert_entries (m : TextMap β) :
    m.entries.foldl (fun m p => m.insert p.1 p.2) empty = m := by
  apply ext_find?
  intro k
  rw [find?_foldl_insert m.sorted,find?_empty,Option.or_none]
  rfl

end TextMap

namespace TextSet

theorem contains_ofList_aux (l : List Text) (s : TextSet) (t : Text) :
    (l.foldl add s).contains t = true ↔ t ∈ l ∨ s.contains t = true := by
  induction l generalizing s with
  | nil => simp
  | cons u l ih =>
    rw [List.foldl_cons,ih,add,TextMap.contains_insert]
    simp only [Bool.or_eq_true,decide_eq_true_eq,List.mem_cons]
    grind

@[simp] theorem contains_ofList {l : List Text} {t : Text} :
    (ofList l).contains t = true ↔ t ∈ l := by
  have hempty : (TextMap.empty : TextSet).contains t = false := rfl
  rw [ofList,contains_ofList_aux,hempty]
  simp

theorem contains_union {s r : TextSet} {t : Text} :
    (s.union r).contains t = true ↔ s.contains t = true ∨ r.contains t = true := by
  rw [union,contains_ofList_aux,TextMap.contains_iff_mem_keys,TextMap.contains_iff_mem_keys,or_comm]

theorem ext {s r : TextSet} (h : ∀ t, s.contains t = true ↔ r.contains t = true) : s = r := by
  apply TextMap.ext_find?
  intro t
  have ht := h t
  rw [TextMap.contains,TextMap.contains] at ht
  cases hs : s.find? t <;> cases hr : r.find? t <;> simp_all

@[simp] theorem ofList_keys (s : TextSet) : ofList s.keys = s :=
  ext fun _ => by rw [contains_ofList,TextMap.contains_iff_mem_keys]

theorem ofList_append (l l' : List Text) : ofList (l ++ l') = (ofList l).union (ofList l') :=
  ext fun _ => by rw [contains_ofList,List.mem_append,contains_union,contains_ofList,contains_ofList]

theorem isEmpty_ofList {l : List Text} : (ofList l).isEmpty = true ↔ l = [] := by
  rw [TextMap.isEmpty_iff,List.eq_nil_iff_forall_not_mem]
  simp only [← contains_ofList,Bool.not_eq_true]

end TextSet
end LoadLedger
