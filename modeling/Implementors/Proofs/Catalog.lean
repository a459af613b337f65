import Implementors.Catalog
import Mathlib

/-!
# Building catalogs

A catalog is determined by its keys in order and the value of each. Putting in entries with new keys,
one after another, appends them; so a catalog is rebuilt from its own entries.
-/
namespace Implementors.Catalog

variable {κ α β : Type} [DecidableEq κ]

theorem mem_of_find? {key : κ} {value : α} {entries : List (κ × α)}
    (h : find? key entries = some value) : (key, value) ∈ entries := by
  induction entries with
  | nil => cases h
  | cons e rest ih =>
    obtain ⟨k, v⟩ := e
    rw [find?] at h
    split at h
    · next hk =>
      cases h
      rw [hk]
      exact List.mem_cons_self
    · exact List.mem_cons_of_mem _ (ih h)

/-- With distinct keys, looking up the key of an entry gives its value. -/
theorem find?_of_mem {entries : List (κ × α)} (h : (entries.map Prod.fst).Nodup) {e : κ × α}
    (he : e ∈ entries) : find? e.1 entries = some e.2 := by
  induction entries with
  | nil => simp at he
  | cons d rest ih =>
    rw [List.map_cons, List.nodup_cons] at h
    rcases List.mem_cons.1 he with rfl | he
    · simp [find?]
    · have hne : d.1 ≠ e.1 := fun hd => h.1 (hd ▸ List.mem_map_of_mem he)
      rw [find?, if_neg hne, ih h.2 he]

theorem get?_of_mem (c : Catalog κ α) {e : κ × α} (he : e ∈ c.entries) :
    c.get? e.1 = some e.2 :=
  find?_of_mem c.distinct he

theorem mem_keys_iff {c : Catalog κ α} {key : κ} :
    key ∈ c.keys ↔ ∃ value, c.get? key = some value := by
  constructor
  · intro h
    obtain ⟨e, he, rfl⟩ := List.mem_map.1 h
    exact ⟨e.2, c.get?_of_mem he⟩
  · rintro ⟨value, h⟩
    exact List.mem_map_of_mem (f := Prod.fst) (mem_of_find? h)

/-- Catalogs agree if looking up a key gives the same in both. -/
theorem agree_of_get?_eq {c d : Catalog κ α} (h : ∀ key, c.get? key = d.get? key) :
    c.Agree (· = ·) d := by
  have hk : c.keys.Perm d.keys := (List.perm_ext_iff_of_nodup c.distinct d.distinct).2 fun key => by
    change key ∈ c.keys ↔ key ∈ d.keys
    rw [mem_keys_iff, mem_keys_iff, h key]
  refine ⟨?_, fun e he => ⟨e.2, ?_, rfl⟩⟩
  · have hl := hk.length_eq
    rwa [keys, keys, List.length_map, List.length_map] at hl
  · rw [← h e.1]
    exact c.get?_of_mem he

theorem alterEntries_of_find? {key : κ} {value : α} {entries : List (κ × α)}
    {change : Option α → α} (h : find? key entries = some value)
    (hc : change (some value) = value) : alterEntries key change entries = entries := by
  induction entries with
  | nil => cases h
  | cons e rest ih =>
    obtain ⟨k, v⟩ := e
    rw [find?] at h
    rw [alterEntries]
    split at h
    · next hk =>
      rw [if_pos hk, Option.some.inj h, hc]
    · next hk =>
      rw [if_neg hk, ih h]

/-- A change that keeps the value of a key changes nothing. -/
theorem alter_of_get? {c : Catalog κ α} {key : κ} {value : α} {change : Option α → α}
    (h : c.get? key = some value) (hc : change (some value) = value) : c.alter key change = c :=
  ext (alterEntries_of_find? h hc)

/-- Giving a key the value that it has changes nothing. -/
theorem insert_of_get? {c : Catalog κ α} {key : κ} {value : α} (h : c.get? key = some value) :
    c.insert key value = c :=
  alter_of_get? h rfl

/-- A catalog is determined by the order of its keys and the value of each. -/
theorem ext_get? {c d : Catalog κ α} (hk : c.keys = d.keys) (hg : ∀ key, c.get? key = d.get? key) :
    c = d := by
  have hvalues : ∀ b : Catalog κ α,
      b.entries.map (fun e => (e.1, some e.2)) = b.keys.map fun k => (k, b.get? k) := by
    intro b
    rw [keys, List.map_map]
    exact List.map_congr_left fun e he => by simp [b.get?_of_mem he]
  have hinj : Function.Injective fun e : κ × α => (e.1, some e.2) := by
    rintro ⟨k, v⟩ ⟨j, w⟩ h
    simpa using h
  apply ext
  apply List.map_injective_iff.2 hinj
  rw [hvalues c, hvalues d, hk]
  exact List.map_congr_left fun k _ => by rw [hg k]

/-- The entries are the keys with their values. -/
theorem entries_eq_map_keys {c : Catalog κ α} {value : κ → α}
    (h : ∀ k ∈ c.keys, c.get? k = some (value k)) :
    c.entries = c.keys.map fun k => (k, value k) := by
  have he : ∀ e ∈ c.entries, (e.1, value e.1) = e := by
    intro e he
    have hv := h e.1 (List.mem_map_of_mem he)
    rw [c.get?_of_mem he, Option.some.injEq] at hv
    rw [← hv]
  rw [keys, List.map_map]
  exact ((List.map_congr_left he).trans (List.map_id' _)).symm

theorem alterEntries_of_not_mem {key : κ} {entries : List (κ × α)}
    (h : key ∉ entries.map Prod.fst) (change : Option α → α) :
    alterEntries key change entries = entries ++ [(key, change none)] := by
  induction entries with
  | nil => rfl
  | cons e rest ih =>
    obtain ⟨k, v⟩ := e
    rw [List.map_cons, List.mem_cons, not_or] at h
    rw [alterEntries, if_neg (Ne.symm h.1), ih h.2]
    rfl

theorem length_alterEntries (key : κ) (change : Option (List α) → List α)
    (entries : List (κ × List α)) :
    ((alterEntries key change entries).flatMap (·.2)).length +
        (find? key entries).elim 0 List.length =
      (entries.flatMap (·.2)).length + (change (find? key entries)).length := by
  induction entries with
  | nil => simp [alterEntries, find?]
  | cons e rest ih =>
    obtain ⟨k, v⟩ := e
    by_cases h : k = key
    · simp only [alterEntries, find?, h, if_true, List.flatMap_cons, List.length_append,
        Option.elim_some]
      omega
    · simp only [alterEntries, find?, h, if_false, List.flatMap_cons, List.length_append]
      omega

/-- The count changes with the length of the one list that is changed. -/
theorem count_alter (c : Catalog κ (List α)) (key : κ) (change : Option (List α) → List α) :
    (c.alter key change).count + (c.get? key).elim 0 List.length =
      c.count + (change (c.get? key)).length :=
  length_alterEntries key change c.entries

/-- Entries with distinct new keys are appended one by one. -/
theorem entries_foldl_alter (change : κ × β → Option α → α) {entries : List (κ × β)}
    (h : (entries.map Prod.fst).Nodup) (c : Catalog κ α)
    (hc : ∀ k ∈ entries.map Prod.fst, k ∉ c.keys) :
    (entries.foldl (fun c e => c.alter e.1 (change e)) c).entries =
      c.entries ++ entries.map fun e => (e.1, change e none) := by
  induction entries generalizing c with
  | nil => simp
  | cons e rest ih =>
    rw [List.map_cons, List.nodup_cons] at h
    have he : (c.alter e.1 (change e)).entries = c.entries ++ [(e.1, change e none)] :=
      alterEntries_of_not_mem (hc e.1 (by simp)) _
    have hk : ∀ k ∈ rest.map Prod.fst, k ∉ (c.alter e.1 (change e)).keys := by
      intro k hm hk
      rw [keys, he, List.map_append, List.mem_append] at hk
      rcases hk with hk | hk
      · exact hc k (List.mem_cons_of_mem _ hm) hk
      · obtain rfl : k = e.1 := by simpa using hk
        exact h.1 hm
    rw [List.foldl_cons, ih h.2 _ hk, he]
    simp

/-- A catalog is what its entries make when they are put in one after another. -/
theorem foldl_insert_entries (c : Catalog κ α) :
    c.entries.foldl (fun d e => d.insert e.1 e.2) Catalog.empty = c := by
  apply ext
  have h := entries_foldl_alter (fun e _ => e.2) c.distinct Catalog.empty (by simp)
  exact h.trans (List.map_id' _)

end Implementors.Catalog
