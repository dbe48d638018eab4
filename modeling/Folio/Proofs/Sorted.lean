import Folio.Sorted
import Mathlib.Data.List.Nodup

/-!
# Sorted associations as finite maps

What `insert` and `ofList` do is said by `List.lookup`: the entry put in last is the one found
(`lookup_insert`, `lookup_foldl_insert`). The entries stay `Ascending`, and an ascending list is the
map that its entries make, in whatever order they are put in (`ofList_eq_of_perm`).
-/

set_option autoImplicit false

namespace Folio.Sorted

theorem lookup_cons_ite {κ α : Type} [DecidableEq κ] (x k : κ) (v : α) (map : List (κ × α)) :
    ((k, v) :: map).lookup x = if x = k then some v else map.lookup x := by
  rw [List.lookup_cons]
  by_cases hx : x = k
  · simp [hx]
  · rw [if_neg hx, beq_eq_false_iff_ne.2 hx]

/-- Where keys differ, every entry is found. -/
theorem lookup_eq_some_iff_of_nodup {κ α : Type} [DecidableEq κ] {map : List (κ × α)}
    (h : (map.map Prod.fst).Nodup) {key : κ} {value : α} :
    map.lookup key = some value ↔ (key, value) ∈ map := by
  induction map with
  | nil => simp
  | cons entry rest ih =>
    obtain ⟨k, v⟩ := entry
    obtain ⟨hn, hrest⟩ := List.nodup_cons.1 h
    by_cases hk : key = k
    · subst hk
      have hm : (key, value) ∉ rest := fun hm => hn (List.mem_map.2 ⟨_, hm, rfl⟩)
      simp [hm, eq_comm]
    · simp [lookup_cons_ite, hk, ih hrest]

theorem lookup_isSome_iff_mem_keys {κ α : Type} [DecidableEq κ] {map : List (κ × α)} {key : κ} :
    (map.lookup key).isSome ↔ key ∈ map.map Prod.fst := by
  simp only [List.lookup_isSome_iff, beq_iff_eq, List.mem_map]
  exact exists_congr fun entry => and_congr_right fun _ => eq_comm

/-- The keys ascend; so each occurs once. -/
def Ascending {κ α : Type} [LT κ] (map : List (κ × α)) : Prop :=
  map.Pairwise (·.1 < ·.1)

section
variable {κ α : Type} [LT κ] [DecidableLT κ]

theorem mem_insert {key : κ} {value : α} {map : List (κ × α)} {e : κ × α}
    (h : e ∈ insert key value map) : e = (key, value) ∨ e ∈ map := by
  induction map with
  | nil => simpa [insert] using h
  | cons entry rest ih =>
    simp only [insert] at h
    split at h
    · simpa using h
    · split at h
      · rcases List.mem_cons.1 h with rfl | h
        · exact .inr List.mem_cons_self
        · exact (ih h).imp_right (List.mem_cons_of_mem _)
      · rcases List.mem_cons.1 h with h | h
        · exact .inl h
        · exact .inr (List.mem_cons_of_mem _ h)

theorem mem_of_mem_foldl_insert {entries map : List (κ × α)} {e : κ × α}
    (h : e ∈ entries.foldl (fun m e => insert e.1 e.2 m) map) : e ∈ entries ∨ e ∈ map := by
  induction entries generalizing map with
  | nil => exact .inr h
  | cons entry entries ih =>
    rcases ih h with h | h
    · exact .inl (List.mem_cons_of_mem _ h)
    · rcases mem_insert h with rfl | h
      · exact .inl List.mem_cons_self
      · exact .inr h

theorem mem_of_mem_ofList {entries : List (κ × α)} {e : κ × α} (h : e ∈ ofList entries) :
    e ∈ entries :=
  (mem_of_mem_foldl_insert h).resolve_right List.not_mem_nil

theorem mem_insertNew {key : κ} {value : α} {map : List (κ × α)} {e : κ × α}
    (h : e ∈ insertNew key value map) : e = (key, value) ∨ e ∈ map := by
  induction map with
  | nil => simpa [insertNew] using h
  | cons entry rest ih =>
    unfold insertNew at h
    split at h
    · exact List.mem_cons.1 h
    · split at h
      · rcases List.mem_cons.1 h with rfl | h
        · exact .inr List.mem_cons_self
        · exact (ih h).imp_right (List.mem_cons_of_mem _)
      · exact .inr h

variable [Std.Trichotomous (α := κ) (· < ·)]

/-- What is there stays, and the key is there. -/
theorem insertNew_keeps (key : κ) (value : α) (map : List (κ × α)) :
    map ⊆ insertNew key value map ∧ key ∈ (insertNew key value map).map Prod.fst := by
  induction map with
  | nil => simp [insertNew]
  | cons entry rest ih =>
    obtain ⟨hsub, hkey⟩ := ih
    unfold insertNew
    split
    · exact ⟨List.subset_cons_self _ _, List.mem_cons_self⟩
    · split
      · exact ⟨List.cons_subset_cons _ hsub, List.mem_cons_of_mem _ hkey⟩
      · rename_i h1 h2
        have hk : key = entry.1 := Std.Trichotomous.trichotomous _ _ h1 h2
        exact ⟨List.Subset.refl _, hk ▸ List.mem_cons_self⟩

theorem mem_add {key x : κ} {set : List κ} : x ∈ add key set ↔ x = key ∨ x ∈ set := by
  induction set with
  | nil => simp [add]
  | cons k rest ih =>
    unfold add
    split
    · exact List.mem_cons
    · split
      · rw [List.mem_cons, ih, List.mem_cons]
        exact or_left_comm
      · rename_i h1 h2
        have hkey : key = k := Std.Trichotomous.trichotomous _ _ h1 h2
        simp [hkey]

theorem mem_addAll {keys set : List κ} {x : κ} : x ∈ addAll keys set ↔ x ∈ keys ∨ x ∈ set := by
  unfold addAll
  induction keys generalizing set with
  | nil => simp
  | cons key keys ih =>
    rw [List.foldl_cons, ih, mem_add, List.mem_cons]
    tauto

end

/-! ## The order -/

section
variable {κ α : Type} [LE κ] [LT κ] [DecidableLT κ] [Std.IsLinearOrder κ]
  [Std.LawfulOrderLT κ]

theorem Ascending.insert {map : List (κ × α)} (h : Ascending map) (key : κ) (value : α) :
    Ascending (insert key value map) := by
  induction map with
  | nil => exact List.pairwise_singleton _ _
  | cons entry rest ih =>
    obtain ⟨hlt, hrest⟩ := List.pairwise_cons.1 h
    unfold Sorted.insert
    split
    · rename_i hk
      refine List.pairwise_cons.2 ⟨fun e he => ?_, h⟩
      rcases List.mem_cons.1 he with rfl | he
      · exact hk
      · exact Std.lt_trans hk (hlt e he)
    · split
      · rename_i hk
        refine List.pairwise_cons.2 ⟨fun e he => ?_, ih hrest⟩
        rcases mem_insert he with rfl | he
        · exact hk
        · exact hlt e he
      · rename_i h1 h2
        have hkey : key = entry.1 := Std.Trichotomous.trichotomous _ _ h1 h2
        subst hkey
        exact List.pairwise_cons.2 ⟨hlt, hrest⟩

theorem Ascending.insertNew {map : List (κ × α)} (h : Ascending map) (key : κ) (value : α) :
    Ascending (insertNew key value map) := by
  induction map with
  | nil => exact List.pairwise_singleton _ _
  | cons entry rest ih =>
    obtain ⟨hlt, hrest⟩ := List.pairwise_cons.1 h
    unfold Sorted.insertNew
    split
    · rename_i hk
      refine List.pairwise_cons.2 ⟨fun e he => ?_, h⟩
      rcases List.mem_cons.1 he with rfl | he
      · exact hk
      · exact Std.lt_trans hk (hlt e he)
    · split
      · rename_i hk
        refine List.pairwise_cons.2 ⟨fun e he => ?_, ih hrest⟩
        rcases mem_insertNew he with rfl | he
        · exact hk
        · exact hlt e he
      · exact h

theorem Ascending.foldl_insert {entries map : List (κ × α)} (h : Ascending map) :
    Ascending (entries.foldl (fun m e => Sorted.insert e.1 e.2 m) map) := by
  induction entries generalizing map with
  | nil => exact h
  | cons e entries ih => exact ih (h.insert e.1 e.2)

theorem ascending_ofList (entries : List (κ × α)) : Ascending (ofList entries) :=
  Ascending.foldl_insert .nil

omit [Std.IsLinearOrder κ] in
theorem insert_insert (key : κ) (value other : α) (map : List (κ × α)) :
    insert key value (insert key other map) = insert key value map := by
  have hirrefl : ¬ key < key := Std.lt_irrefl
  induction map with
  | nil => simp [insert, hirrefl]
  | cons entry rest ih =>
    by_cases hbefore : key < entry.1
    · simp [insert, hbefore, hirrefl]
    · by_cases hafter : entry.1 < key
      · simp [insert, hbefore, hafter, ih]
      · simp [insert, hbefore, hafter, hirrefl]

/-! ## What is found -/

variable [DecidableEq κ]

theorem lookup_insert (key : κ) (value : α) (map : List (κ × α)) (x : κ) :
    (insert key value map).lookup x = if x = key then some value else map.lookup x := by
  induction map with
  | nil => by_cases hx : x = key <;> simp [insert, lookup_cons_ite, hx]
  | cons entry rest ih =>
    obtain ⟨k, v⟩ := entry
    simp only [insert]
    split
    · by_cases hx : x = key
      · simp [hx]
      · simp [lookup_cons_ite, hx]
    · split
      · rename_i hk
        have hne : key ≠ k := fun he => Std.lt_irrefl (he ▸ hk)
        by_cases hx : x = k
        · subst hx
          simp [Ne.symm hne]
        · simp [lookup_cons_ite, hx, ih]
      · rename_i h1 h2
        have hkey : key = k := Std.Trichotomous.trichotomous _ _ h1 h2
        subst hkey
        by_cases hx : x = key <;> simp [lookup_cons_ite, hx]

/-- Of the entries with one key, the last counts. -/
theorem lookup_foldl_insert (entries map : List (κ × α)) (x : κ) :
    (entries.foldl (fun m e => insert e.1 e.2 m) map).lookup x =
      (entries.reverse.lookup x).or (map.lookup x) := by
  induction entries generalizing map with
  | nil => simp
  | cons e entries ih =>
    obtain ⟨k, v⟩ := e
    rw [List.foldl_cons, ih, lookup_insert, List.reverse_cons, List.lookup_append]
    by_cases hx : x = k
    · subst hx; simp
    · simp [lookup_cons_ite, hx]

theorem lookup_ofList (entries : List (κ × α)) (x : κ) :
    (ofList entries).lookup x = entries.reverse.lookup x := by
  simp [ofList, lookup_foldl_insert]

theorem mem_keys_ofList {entries : List (κ × α)} {x : κ} :
    x ∈ (ofList entries).map Prod.fst ↔ x ∈ entries.map Prod.fst := by
  rw [← lookup_isSome_iff_mem_keys, lookup_ofList, lookup_isSome_iff_mem_keys, List.map_reverse,
    List.mem_reverse]

end

/-! ## Ascending lists -/

section
variable {κ α : Type} [LE κ] [LT κ] [Std.IsLinearOrder κ] [Std.LawfulOrderLT κ]

omit [Std.IsLinearOrder κ] in
theorem Ascending.nodup_keys {map : List (κ × α)} (h : Ascending map) :
    (map.map Prod.fst).Nodup := by
  rw [List.Nodup, List.pairwise_map]
  exact List.Pairwise.imp (fun {a b} hlt (he : a.1 = b.1) => Std.lt_irrefl (he ▸ hlt)) h

variable [DecidableEq κ]

omit [Std.IsLinearOrder κ] in
/-- In an ascending list every entry is found. -/
theorem Ascending.lookup_eq_some_iff {map : List (κ × α)} (h : Ascending map) {key : κ}
    {value : α} : map.lookup key = some value ↔ (key, value) ∈ map :=
  lookup_eq_some_iff_of_nodup h.nodup_keys

/-- Entries whose keys differ are all kept. -/
theorem mem_ofList [DecidableLT κ] {entries : List (κ × α)} (h : (entries.map Prod.fst).Nodup)
    {key : κ} {value : α} : (key, value) ∈ ofList entries ↔ (key, value) ∈ entries := by
  have hr : (entries.reverse.map Prod.fst).Nodup := by
    rw [List.map_reverse, List.Nodup, List.pairwise_reverse]
    exact List.Pairwise.imp Ne.symm h
  rw [← (ascending_ofList entries).lookup_eq_some_iff, lookup_ofList,
    lookup_eq_some_iff_of_nodup hr, List.mem_reverse]

/-- Entries whose keys differ are only put in order. -/
theorem ofList_perm [DecidableLT κ] {entries : List (κ × α)}
    (h : (entries.map Prod.fst).Nodup) : (ofList entries).Perm entries :=
  (List.perm_ext_iff_of_nodup ((ascending_ofList entries).nodup_keys.of_map _)
    (h.of_map _)).2 fun _ => mem_ofList h

/-- An ascending list is the map that its entries make, in whatever order they are put in. -/
theorem ofList_eq_of_perm [DecidableLT κ] {entries map : List (κ × α)} (hm : Ascending map)
    (hp : entries.Perm map) : ofList entries = map :=
  ((ofList_perm ((hp.map Prod.fst).nodup_iff.2 hm.nodup_keys)).trans hp).eq_of_pairwise
    (fun _ _ _ _ h1 h2 => absurd (Std.lt_trans h1 h2) Std.lt_irrefl) (ascending_ofList entries) hm

/-- Entries that ascend are the map that they make. -/
theorem ofList_of_ascending [DecidableLT κ] {entries : List (κ × α)} (h : Ascending entries) :
    ofList entries = entries :=
  ofList_eq_of_perm h (.refl _)

end

end Folio.Sorted
