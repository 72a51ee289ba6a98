import Mathlib.Data.List.Nodup

/-!
# Maps as sorted association lists

A finite map kept as a list of entries in increasing key order, read with
`List.lookup`.  The order is a parameter, so that the same lemmas serve string
keys and any other ordered key; only the proofs about sortedness ask the order
to be a strict one.
-/

namespace OrderedMap

universe u v

variable {κ : Type u} {β : Type v}

/-- The keys of a map, in order. -/
def keys (m : List (κ × β)) : List κ := m.map Prod.fst

@[simp] theorem keys_nil : keys ([] : List (κ × β)) = [] := rfl

@[simp] theorem keys_cons (e : κ × β) (m : List (κ × β)) : keys (e :: m) = e.1 :: keys m := rfl

variable [DecidableEq κ]

/-- Is the key bound? -/
def contains (m : List (κ × β)) (k : κ) : Bool := (m.lookup k).isSome

theorem lookup_cons_eq (k k' : κ) (v : β) (m : List (κ × β)) :
    ((k', v) :: m).lookup k = if k = k' then some v else m.lookup k := by
  by_cases h : k = k'
  · subst h; simp
  · have hb : (k == k') = false := by simpa using h
    rw [if_neg h, List.lookup_cons, hb]

theorem lookup_isSome_iff_mem_keys {m : List (κ × β)} {k : κ} :
    (m.lookup k).isSome = true ↔ k ∈ keys m := by
  induction m with
  | nil => simp
  | cons e m ih =>
    obtain ⟨k', v⟩ := e
    rw [lookup_cons_eq, keys_cons, List.mem_cons, ← ih]
    by_cases h : k = k'
    · simp [h]
    · simp [h]

theorem lookup_eq_none_of_not_mem {m : List (κ × β)} {k : κ} (h : k ∉ keys m) :
    m.lookup k = none := by
  rw [← lookup_isSome_iff_mem_keys, Option.not_isSome_iff_eq_none] at h
  exact h

theorem mem_of_lookup {m : List (κ × β)} {k : κ} {v : β} (h : m.lookup k = some v) :
    (k, v) ∈ m := by
  induction m with
  | nil => simp at h
  | cons e m ih =>
    obtain ⟨k', v'⟩ := e
    rw [lookup_cons_eq] at h
    split at h
    · rename_i heq
      subst heq
      cases h
      simp
    · exact List.mem_cons_of_mem _ (ih h)

/-- In a map without repeated keys every entry is found. -/
theorem lookup_of_mem {m : List (κ × β)} (hnd : (keys m).Nodup) {k : κ} {v : β}
    (h : (k, v) ∈ m) : m.lookup k = some v := by
  induction m with
  | nil => simp at h
  | cons e m ih =>
    obtain ⟨k', v'⟩ := e
    rw [keys_cons, List.nodup_cons] at hnd
    rw [lookup_cons_eq]
    rcases List.mem_cons.mp h with heq | hm
    · cases heq; simp
    · have hne : k ≠ k' := by
        rintro rfl
        exact hnd.1 (List.mem_map.mpr ⟨(k, v), hm, rfl⟩)
      rw [if_neg hne]
      exact ih hnd.2 hm

/-! ### Removing -/

/-- Remove a key. -/
def erase (m : List (κ × β)) (k : κ) : List (κ × β) := m.filter fun e => decide (e.1 ≠ k)

@[simp] theorem mem_keys_erase {m : List (κ × β)} {k k' : κ} :
    k' ∈ keys (erase m k) ↔ k' ∈ keys m ∧ k' ≠ k := by
  simp only [keys, erase, List.mem_map, List.mem_filter, decide_eq_true_eq]
  constructor
  · rintro ⟨e, ⟨he, hne⟩, rfl⟩
    exact ⟨⟨e, he, rfl⟩, hne⟩
  · rintro ⟨⟨e, he, rfl⟩, hne⟩
    exact ⟨e, ⟨he, hne⟩, rfl⟩

theorem lookup_erase_of_ne {m : List (κ × β)} {k k' : κ} (h : k' ≠ k) :
    (erase m k).lookup k' = m.lookup k' := by
  induction m with
  | nil => rfl
  | cons e m ih =>
    obtain ⟨k₀, v⟩ := e
    simp only [erase, List.filter_cons] at ih ⊢
    by_cases h₀ : k₀ = k
    · subst h₀
      simp only [ne_eq, not_true_eq_false, decide_false, Bool.false_eq_true, ↓reduceIte]
      rw [lookup_cons_eq, if_neg h]
      exact ih
    · simp only [ne_eq, h₀, not_false_eq_true, decide_true, ↓reduceIte]
      rw [lookup_cons_eq, lookup_cons_eq, ih]

/-! ### Inserting -/

section Insert

variable (lt : κ → κ → Bool)

/-- Bind a key, replacing an older binding and keeping the entries in order. -/
def insert (m : List (κ × β)) (k : κ) (v : β) : List (κ × β) :=
  match m with
  | [] => [(k, v)]
  | (k', v') :: rest =>
      if k = k' then (k, v) :: rest
      else if lt k k' then (k, v) :: (k', v') :: rest
      else (k', v') :: insert rest k v

@[simp] theorem lookup_insert_self (m : List (κ × β)) (k : κ) (v : β) :
    (insert lt m k v).lookup k = some v := by
  induction m with
  | nil => simp [insert]
  | cons e m ih =>
    obtain ⟨k', v'⟩ := e
    rw [insert]
    split
    · simp
    · rename_i hne
      split
      · simp
      · rw [lookup_cons_eq, if_neg hne, ih]

theorem lookup_insert_of_ne (m : List (κ × β)) {k k' : κ} (v : β) (h : k' ≠ k) :
    (insert lt m k v).lookup k' = m.lookup k' := by
  induction m with
  | nil => simp [insert, lookup_cons_eq, h]
  | cons e m ih =>
    obtain ⟨k₀, v₀⟩ := e
    rw [insert]
    split
    · rename_i heq
      subst heq
      rw [lookup_cons_eq, lookup_cons_eq, if_neg h, if_neg h]
    · split
      · rw [lookup_cons_eq, if_neg h]
      · rw [lookup_cons_eq, lookup_cons_eq, ih]

theorem lookup_insert (m : List (κ × β)) (k k' : κ) (v : β) :
    (insert lt m k v).lookup k' = if k' = k then some v else m.lookup k' := by
  split
  · rename_i h; subst h; exact lookup_insert_self lt m k' v
  · rename_i h; exact lookup_insert_of_ne lt m v h

@[simp] theorem mem_keys_insert {m : List (κ × β)} {k k' : κ} {v : β} :
    k' ∈ keys (insert lt m k v) ↔ k' ∈ keys m ∨ k' = k := by
  rw [← lookup_isSome_iff_mem_keys, lookup_insert, ← lookup_isSome_iff_mem_keys]
  by_cases h : k' = k
  · simp [h]
  · simp [h]

end Insert

/-! ### Sortedness -/

/-- Entries in strictly increasing key order. -/
def Sorted (lt : κ → κ → Bool) (m : List (κ × β)) : Prop :=
  (keys m).Pairwise fun a b => lt a b = true

instance (lt : κ → κ → Bool) (m : List (κ × β)) : Decidable (Sorted lt m) :=
  inferInstanceAs (Decidable (List.Pairwise _ _))

omit [DecidableEq κ] in
theorem sorted_cons {lt : κ → κ → Bool} {e : κ × β} {m : List (κ × β)} :
    Sorted lt (e :: m) ↔ (∀ k ∈ keys m, lt e.1 k = true) ∧ Sorted lt m :=
  List.pairwise_cons

omit [DecidableEq κ] in
theorem Sorted.nodup {lt : κ → κ → Bool} (hirr : ∀ a, lt a a = false) {m : List (κ × β)}
    (h : Sorted lt m) : (keys m).Nodup :=
  List.Pairwise.imp (fun {a b} hlt heq => by subst heq; simp [hirr] at hlt) h

/-- Binding a key keeps the entries in order. -/
theorem Sorted.insert {lt : κ → κ → Bool} {m : List (κ × β)} (h : Sorted lt m)
    (htrans : ∀ {a b c}, lt a b = true → lt b c = true → lt a c = true)
    (hconnected : ∀ {a b}, lt a b = false → lt b a = false → a = b) (k : κ) (v : β) :
    Sorted lt (OrderedMap.insert lt m k v) := by
  induction m with
  | nil => exact List.pairwise_singleton _ _
  | cons e rest ih =>
    obtain ⟨k', v'⟩ := e
    obtain ⟨hfirst, hrest⟩ := sorted_cons.mp h
    rw [OrderedMap.insert]
    split
    · rename_i heq
      subst heq
      exact sorted_cons.mpr ⟨hfirst, hrest⟩
    · rename_i hne
      split
      · rename_i hlt
        refine sorted_cons.mpr ⟨?_, h⟩
        intro k'' hk''
        rcases List.mem_cons.mp hk'' with rfl | hk''
        · exact hlt
        · exact htrans hlt (hfirst k'' hk'')
      · rename_i hnlt
        refine sorted_cons.mpr ⟨?_, ih hrest⟩
        intro k'' hk''
        rcases (mem_keys_insert lt).mp hk'' with hk'' | rfl
        · exact hfirst k'' hk''
        · by_contra hgt
          exact hne (hconnected (by simpa using hnlt) (by simpa using hgt))

/-- **Ordered maps are extensional**: what they bind determines their entries. -/
theorem Sorted.ext {lt : κ → κ → Bool} {m n : List (κ × β)} (hm : Sorted lt m) (hn : Sorted lt n)
    (htrans : ∀ {a b c}, lt a b = true → lt b c = true → lt a c = true)
    (hirr : ∀ a, lt a a = false) (h : ∀ k, m.lookup k = n.lookup k) : m = n := by
  have hmem : ∀ e, e ∈ m ↔ e ∈ n := by
    rintro ⟨k, v⟩
    constructor
    · intro he
      exact mem_of_lookup ((h k).symm.trans (lookup_of_mem (hm.nodup hirr) he))
    · intro he
      exact mem_of_lookup ((h k).trans (lookup_of_mem (hn.nodup hirr) he))
  have hperm : m.Perm n :=
    (List.perm_ext_iff_of_nodup (hm.nodup hirr).of_map (hn.nodup hirr).of_map).mpr hmem
  have hasymm : ∀ a b : κ × β, a ∈ m → b ∈ n → lt a.1 b.1 = true → lt b.1 a.1 = true → a = b := by
    intro a b _ _ hab hba
    have hloop := htrans hab hba
    rw [hirr] at hloop
    cases hloop
  exact hperm.eq_of_pairwise hasymm (List.pairwise_map.mp hm) (List.pairwise_map.mp hn)

end OrderedMap
