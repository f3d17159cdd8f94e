/-
# Maps in the order of their keys

A finite map from texts, kept as its entries in strictly ascending order of the keys (by code point,
which is also the order of their bytes). Two maps with the same entries are equal.

Key definitions: `OrderedMap`, `OrderedMap.get?`, `OrderedMap.insert`, `OrderedMap.erase`,
`OrderedMap.ofList`.
Key theorems: `OrderedMap.get?_insert`, `OrderedMap.get?_erase`, `OrderedMap.ext_get?`,
`OrderedMap.size_insert`, `OrderedMap.size_erase`.
-/

namespace LanInference

/-- Entries in ascending order of their keys. -/
def Ascending {α : Type} (es : List (String × α)) : Prop := es.Pairwise fun a b => a.1 < b.1

/-- No text comes twice in an ascending list. -/
theorem nodup_of_ascending {xs : List String} (h : xs.Pairwise (· < ·)) : xs.Nodup := by
  refine h.imp ?_
  rintro a _ hlt rfl
  exact String.lt_irrefl a hlt

/-- A finite map from texts to `α`. -/
structure OrderedMap (α : Type) where
  entries : List (String × α)
  ascending : Ascending entries

namespace OrderedMap

variable {α : Type}

instance [DecidableEq α] : DecidableEq (OrderedMap α) := fun a b =>
  if h : a.entries = b.entries then isTrue (by cases a; cases b; simp_all)
  else isFalse fun h' => h (by rw [h'])

instance [Repr α] : Repr (OrderedMap α) := ⟨fun m n => reprPrec m.entries n⟩

/-- Of two different keys one is smaller. -/
theorem key_lt_of_not_lt_of_ne {a b : String} (h : ¬ a < b) (hne : a ≠ b) : b < a := by
  rcases Decidable.em (b < a) with hb | hb
  · exact hb
  · exact absurd (String.le_antisymm (String.not_lt.mp hb) (String.not_lt.mp h)) hne

/-- The entries with `k` bound to `v`. -/
def insertEntry (k : String) (v : α) : List (String × α) → List (String × α)
  | [] => [(k, v)]
  | e :: es =>
    if k < e.1 then (k, v) :: e :: es
    else if k = e.1 then (k, v) :: es
    else e :: insertEntry k v es

theorem mem_insertEntry {k : String} {v : α} {x : String × α} :
    ∀ {es : List (String × α)}, x ∈ insertEntry k v es → x = (k, v) ∨ x ∈ es
  | [], h => by simpa [insertEntry] using h
  | e :: es, h => by
    unfold insertEntry at h
    split at h
    · simpa using h
    · split at h
      · rcases List.mem_cons.mp h with h | h
        · exact .inl h
        · exact .inr (List.mem_cons_of_mem _ h)
      · rcases List.mem_cons.mp h with h | h
        · exact .inr (h ▸ List.mem_cons_self)
        · exact (mem_insertEntry h).imp id (List.mem_cons_of_mem _)

theorem ascending_insertEntry (k : String) (v : α) :
    ∀ {es : List (String × α)}, Ascending es → Ascending (insertEntry k v es)
  | [], _ => by simp [insertEntry, Ascending]
  | e :: es, h => by
    have h' := List.pairwise_cons.mp h
    unfold insertEntry
    split
    · rename_i hk
      refine List.pairwise_cons.mpr ⟨fun x hx => ?_, h⟩
      rcases List.mem_cons.mp hx with rfl | hx
      · exact hk
      · exact String.lt_trans hk (h'.1 x hx)
    · rename_i hk
      split
      · rename_i he
        exact List.pairwise_cons.mpr ⟨fun x hx => he ▸ h'.1 x hx, h'.2⟩
      · rename_i he
        refine List.pairwise_cons.mpr ⟨fun x hx => ?_, ascending_insertEntry k v h'.2⟩
        rcases mem_insertEntry hx with rfl | hx
        · exact key_lt_of_not_lt_of_ne hk he
        · exact h'.1 x hx

def empty : OrderedMap α := ⟨[], List.Pairwise.nil⟩

instance : Inhabited (OrderedMap α) := ⟨empty⟩

/-- The value bound to `k`. -/
def get? (m : OrderedMap α) (k : String) : Option α := (m.entries.find? (·.1 = k)).map (·.2)

def contains (m : OrderedMap α) (k : String) : Bool := (m.get? k).isSome

def insert (m : OrderedMap α) (k : String) (v : α) : OrderedMap α :=
  ⟨insertEntry k v m.entries, ascending_insertEntry k v m.ascending⟩

def erase (m : OrderedMap α) (k : String) : OrderedMap α :=
  ⟨m.entries.filter (·.1 ≠ k), m.ascending.filter _⟩

def size (m : OrderedMap α) : Nat := m.entries.length

def isEmpty (m : OrderedMap α) : Bool := m.entries.isEmpty

def keys (m : OrderedMap α) : List String := m.entries.map (·.1)

def values (m : OrderedMap α) : List α := m.entries.map (·.2)

/-- The map of a list of entries, a later entry in place of an earlier one with its key. -/
def ofList (es : List (String × α)) : OrderedMap α :=
  es.foldl (fun m e => m.insert e.1 e.2) empty

theorem ext {a b : OrderedMap α} (h : a.entries = b.entries) : a = b := by
  cases a; cases b; simp_all

theorem get?_empty (k : String) : (empty : OrderedMap α).get? k = none := rfl

theorem find?_insertEntry (k : String) (v : α) (j : String) :
    ∀ es : List (String × α),
      ((insertEntry k v es).find? (·.1 = j)).map (·.2) =
        if j = k then some v else (es.find? (·.1 = j)).map (·.2)
  | [] => by
    by_cases h : j = k
    · simp [insertEntry, h]
    · simp [insertEntry, h, Ne.symm h]
  | e :: es => by
    have ih := find?_insertEntry k v j es
    unfold insertEntry
    by_cases h : j = k
    · subst h
      simp only [if_true] at ih ⊢
      split
      · simp
      · split
        · simp
        · rename_i he
          rw [List.find?_cons_of_neg (by simp [Ne.symm he])]
          exact ih
    · simp only [if_neg h] at ih ⊢
      split
      · rw [List.find?_cons_of_neg (by simp [Ne.symm h])]
      · split
        · rename_i he
          rw [List.find?_cons_of_neg (by simp [Ne.symm h]),
            List.find?_cons_of_neg (by simp [← he, Ne.symm h])]
        · simp only [List.find?_cons]
          split
          · rfl
          · exact ih

/-- After an insertion its key has the new value, and other keys have theirs. -/
theorem get?_insert (m : OrderedMap α) (k : String) (v : α) (j : String) :
    (m.insert k v).get? j = if j = k then some v else m.get? j :=
  find?_insertEntry k v j m.entries

/-- After a removal its key is unbound, and other keys have their values. -/
theorem get?_erase (m : OrderedMap α) (k j : String) :
    (m.erase k).get? j = if j = k then none else m.get? j := by
  unfold get? erase
  by_cases h : j = k
  · subst h
    simp
  · rw [if_neg h, List.find?_filter]
    congr 2
    funext e
    by_cases hj : e.1 = j
    · simp [hj, h]
    · simp [hj]

@[simp] theorem contains_empty (k : String) : (empty : OrderedMap α).contains k = false := rfl

theorem contains_insert (m : OrderedMap α) (k : String) (v : α) (j : String) :
    (m.insert k v).contains j = (decide (j = k) || m.contains j) := by
  unfold contains
  rw [get?_insert]
  by_cases h : j = k <;> simp [h]

theorem contains_erase (m : OrderedMap α) (k j : String) :
    (m.erase k).contains j = (decide (j ≠ k) && m.contains j) := by
  unfold contains
  rw [get?_erase]
  by_cases h : j = k <;> simp [h]

theorem mem_of_get? {m : OrderedMap α} {k : String} {v : α} (h : m.get? k = some v) :
    (k, v) ∈ m.entries := by
  unfold get? at h
  obtain ⟨e, he, rfl⟩ := Option.map_eq_some_iff.mp h
  have hk := List.find?_some he
  have hm := List.mem_of_find?_eq_some he
  simp only [decide_eq_true_eq] at hk
  rw [← hk]
  exact hm

/-- In ascending entries the entry of a key is the only one. -/
theorem find?_of_mem {k : String} {v : α} :
    ∀ {es : List (String × α)}, Ascending es → (k, v) ∈ es →
      es.find? (·.1 = k) = some (k, v)
  | [], _, h => by simp at h
  | e :: es, ha, h => by
    have ha' := List.pairwise_cons.mp ha
    rcases List.mem_cons.mp h with rfl | h
    · simp
    · have hlt : e.1 < k := ha'.1 _ h
      have hne : e.1 ≠ k := fun he => String.lt_irrefl k (he ▸ hlt)
      rw [List.find?_cons_of_neg (by simp [hne])]
      exact find?_of_mem ha'.2 h

theorem get?_eq_some_iff {m : OrderedMap α} {k : String} {v : α} :
    m.get? k = some v ↔ (k, v) ∈ m.entries :=
  ⟨mem_of_get?, fun h => by unfold get?; rw [find?_of_mem m.ascending h]; rfl⟩

theorem mem_keys_iff {m : OrderedMap α} {k : String} : k ∈ m.keys ↔ m.contains k = true := by
  rw [contains, Option.isSome_iff_exists]
  constructor
  · intro h
    obtain ⟨e, he, rfl⟩ := List.mem_map.mp h
    exact ⟨e.2, get?_eq_some_iff.mpr he⟩
  · rintro ⟨v, hv⟩
    exact List.mem_map.mpr ⟨(k, v), mem_of_get? hv, rfl⟩

theorem keys_ascending (m : OrderedMap α) : m.keys.Pairwise (· < ·) :=
  List.pairwise_map.mpr m.ascending

/-- Ascending lists with the same members are equal. -/
theorem eq_of_mem_iff : ∀ {es fs : List (String × α)}, Ascending es → Ascending fs →
    (∀ e, e ∈ es ↔ e ∈ fs) → es = fs
  | [], [], _, _, _ => rfl
  | [], f :: fs, _, _, h => absurd ((h f).mpr List.mem_cons_self) (by simp)
  | e :: es, [], _, _, h => absurd ((h e).mp List.mem_cons_self) (by simp)
  | e :: es, f :: fs, he, hf, h => by
    have he' := List.pairwise_cons.mp he
    have hf' := List.pairwise_cons.mp hf
    have hef : e = f := by
      rcases List.mem_cons.mp ((h e).mp List.mem_cons_self) with h1 | h1
      · exact h1
      · rcases List.mem_cons.mp ((h f).mpr List.mem_cons_self) with h2 | h2
        · exact h2.symm
        · exact absurd (hf'.1 e h1) (String.lt_asymm (he'.1 f h2))
    subst hef
    congr 1
    refine eq_of_mem_iff he'.2 hf'.2 fun x => ?_
    constructor
    · intro hx
      rcases List.mem_cons.mp ((h x).mp (List.mem_cons_of_mem _ hx)) with rfl | h1
      · exact absurd (he'.1 _ hx) (String.lt_irrefl _)
      · exact h1
    · intro hx
      rcases List.mem_cons.mp ((h x).mpr (List.mem_cons_of_mem _ hx)) with rfl | h1
      · exact absurd (hf'.1 _ hx) (String.lt_irrefl _)
      · exact h1

/-- Maps with the same values at all keys are equal. -/
theorem ext_get? {a b : OrderedMap α} (h : ∀ k, a.get? k = b.get? k) : a = b := by
  refine ext (eq_of_mem_iff a.ascending b.ascending fun e => ?_)
  rw [← get?_eq_some_iff (m := a), ← get?_eq_some_iff (m := b), h e.1]

/-- A map is determined by its keys and what they are bound to. -/
theorem eq_of_get?_of_keys {a b : OrderedMap α}
    (h : ∀ k, a.get? k = if k ∈ b.keys then b.get? k else none) : a = b := by
  refine ext_get? fun k => ?_
  rw [h]
  by_cases hk : k ∈ b.keys
  · rw [if_pos hk]
  · rw [if_neg hk]
    rw [mem_keys_iff, contains, Option.not_isSome_iff_eq_none] at hk
    exact hk.symm

/-! ### Sizes -/

/-- In ascending entries a key below all of them is bound to nothing. -/
theorem find?_eq_none_of_lt {k : String} {es : List (String × α)} (h : ∀ x ∈ es, k < x.1) :
    es.find? (·.1 = k) = none := by
  refine List.find?_eq_none.mpr fun x hx hk => ?_
  have hlt := h x hx
  rw [of_decide_eq_true hk] at hlt
  exact String.lt_irrefl k hlt

theorem length_insertEntry (k : String) (v : α) : ∀ {es : List (String × α)}, Ascending es →
    (insertEntry k v es).length =
      if (es.find? (·.1 = k)).isSome then es.length else es.length + 1
  | [], _ => rfl
  | e :: es, h => by
    have h' := List.pairwise_cons.mp h
    have ih := length_insertEntry k v h'.2
    unfold insertEntry
    by_cases hlt : k < e.1
    · have hnone : (e :: es).find? (·.1 = k) = none := by
        refine find?_eq_none_of_lt fun x hx => ?_
        rcases List.mem_cons.mp hx with rfl | hx
        · exact hlt
        · exact String.lt_trans hlt (h'.1 x hx)
      rw [if_pos hlt, hnone]
      rfl
    · rw [if_neg hlt]
      by_cases hk : k = e.1
      · simp [hk]
      · rw [if_neg hk, List.length_cons, ih, List.find?_cons_of_neg (by simp [Ne.symm hk])]
        split <;> rfl

/-- An insertion adds an entry unless its key is bound. -/
theorem size_insert (m : OrderedMap α) (k : String) (v : α) :
    (m.insert k v).size = if m.contains k then m.size else m.size + 1 := by
  have hlength := length_insertEntry k v m.ascending
  rwa [← Option.isSome_map (f := Prod.snd)] at hlength

theorem length_filter_ne (k : String) : ∀ {es : List (String × α)}, Ascending es →
    (es.filter (·.1 ≠ k)).length =
      if (es.find? (·.1 = k)).isSome then es.length - 1 else es.length
  | [], _ => rfl
  | e :: es, h => by
    have h' := List.pairwise_cons.mp h
    have ih := length_filter_ne k h'.2
    by_cases hk : e.1 = k
    · have hrest : es.find? (·.1 = k) = none := find?_eq_none_of_lt fun x hx => hk ▸ h'.1 x hx
      rw [hrest] at ih
      simp only [Option.isSome_none, Bool.false_eq_true, if_false] at ih
      rw [List.filter_cons_of_neg (by simp [hk]), ih, List.find?_cons_of_pos (by simp [hk])]
      rfl
    · rw [List.filter_cons_of_pos (by simp [hk]), List.find?_cons_of_neg (by simp [hk]),
        List.length_cons, ih]
      split
      · rename_i hsome
        obtain ⟨x, hx⟩ := Option.isSome_iff_exists.mp hsome
        have hpos := List.length_pos_of_mem (List.mem_of_find?_eq_some hx)
        rw [List.length_cons]
        omega
      · rfl

/-- A removal takes the entry of its key away if there is one. -/
theorem size_erase (m : OrderedMap α) (k : String) :
    (m.erase k).size = if m.contains k then m.size - 1 else m.size := by
  have hlength := length_filter_ne k m.ascending
  rwa [← Option.isSome_map (f := Prod.snd)] at hlength

/-- A map that binds a key has an entry. -/
theorem size_pos {m : OrderedMap α} {k : String} (h : m.contains k = true) : 0 < m.size := by
  obtain ⟨v, hv⟩ := Option.isSome_iff_exists.mp h
  exact List.length_pos_of_mem (mem_of_get? hv)

/-! ### Values -/

theorem perm_of_ascending (k : String) : ∀ {es : List (String × α)}, Ascending es →
    (es.map (·.2)).Perm (((es.find? (·.1 = k)).map (·.2)).toList ++
      (es.filter (·.1 ≠ k)).map (·.2))
  | [], _ => List.Perm.refl []
  | e :: es, h => by
    have h' := List.pairwise_cons.mp h
    have ih := perm_of_ascending k h'.2
    by_cases hk : e.1 = k
    · have hrest : es.filter (·.1 ≠ k) = es := by
        refine List.filter_eq_self.mpr fun x hx => decide_eq_true fun hxk => ?_
        have hlt := h'.1 x hx
        rw [hk, hxk] at hlt
        exact String.lt_irrefl k hlt
      rw [List.find?_cons_of_pos (by simp [hk]), List.filter_cons_of_neg (by simp [hk]), hrest]
      exact List.Perm.refl _
    · rw [List.find?_cons_of_neg (by simp [hk]), List.filter_cons_of_pos (by simp [hk])]
      exact (ih.cons e.2).trans List.perm_middle.symm

/-- The values are that of a key, if it is bound, and those of the others. -/
theorem values_perm (m : OrderedMap α) (k : String) :
    m.values.Perm ((m.get? k).toList ++ (m.erase k).values) := perm_of_ascending k m.ascending

theorem filterMap_of_forall {f : String → Option α} : ∀ {es : List (String × α)},
    (∀ e ∈ es, f e.1 = some e.2) → (es.map (·.1)).filterMap f = es.map (·.2)
  | [], _ => rfl
  | e :: es, h => by
    have ih := filterMap_of_forall fun x hx => h x (List.mem_cons_of_mem e hx)
    rw [List.map_cons, List.filterMap_cons_some (h e List.mem_cons_self), ih, List.map_cons]

/-- The values are those that the keys are bound to. -/
theorem filterMap_keys (m : OrderedMap α) : m.keys.filterMap m.get? = m.values :=
  filterMap_of_forall fun _ he => get?_eq_some_iff.mpr he

end OrderedMap
end LanInference
