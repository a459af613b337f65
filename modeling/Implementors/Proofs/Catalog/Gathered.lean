import Implementors.Proofs.Catalog
import Mathlib

/-!
# Lists gathered under keys

Entries list values under keys, and may name a key more than once. Adding them one after another to a
catalog puts every new key where it is mentioned first, and adds to its list all that the entries list
under it in their order. Putting them in one after another instead leaves of a key what was put in
last.
-/
namespace Implementors

theorem eraseDups_concat_of_mem {α : Type} [BEq α] [LawfulBEq α] {l : List α} {a : α}
    (h : a ∈ l) : (l ++ [a]).eraseDups = l.eraseDups := by
  rw [List.eraseDups_append]
  simp [List.removeAll, h]

theorem eraseDups_concat_of_not_mem {α : Type} [BEq α] [LawfulBEq α] {l : List α} {a : α}
    (h : a ∉ l) : (l ++ [a]).eraseDups = l.eraseDups ++ [a] := by
  rw [List.eraseDups_append]
  simp [List.removeAll, h, List.eraseDups_cons]

/-- Changing different entries into different ones leaves them where they are. -/
theorem eraseDups_map_of_inj {α β : Type} [BEq α] [LawfulBEq α] [BEq β] [LawfulBEq β] {f : α → β}
    {l : List α} (hf : ∀ a ∈ l, ∀ b ∈ l, f a = f b → a = b) :
    (l.map f).eraseDups = l.eraseDups.map f := by
  induction l using List.reverseRecOn with
  | nil => rfl
  | append_singleton l a ih =>
    have hl := ih fun b hb c hc =>
      hf b (List.mem_append_left _ hb) c (List.mem_append_left _ hc)
    rw [List.map_append, List.map_singleton]
    by_cases h : a ∈ l
    · rw [eraseDups_concat_of_mem h, eraseDups_concat_of_mem (List.mem_map_of_mem h), hl]
    · have hm : f a ∉ l.map f := by
        intro hm
        obtain ⟨b, hb, he⟩ := List.mem_map.1 hm
        have hba := hf b (List.mem_append_left _ hb) a (List.mem_append_right _ List.mem_cons_self) he
        exact h (hba ▸ hb)
      rw [eraseDups_concat_of_not_mem h, eraseDups_concat_of_not_mem hm, hl, List.map_append]
      rfl

theorem eraseDups_map {α β : Type} [BEq α] [LawfulBEq α] [BEq β] [LawfulBEq β] {f : α → β}
    (hf : Function.Injective f) (l : List α) : (l.map f).eraseDups = l.eraseDups.map f :=
  eraseDups_map_of_inj fun _ _ _ _ he => hf he

/-- The keys of some entries, each at the place where it is mentioned first. -/
def mentioned {κ α : Type} [DecidableEq κ] (entries : List (κ × α)) : List κ :=
  (entries.map Prod.fst).eraseDups

/-- What some entries list under a key, one after another. -/
def listedFor {κ α : Type} [DecidableEq κ] (key : κ) (entries : List (κ × List α)) : List α :=
  (entries.filter (·.1 = key)).flatMap (·.2)

variable {κ α β : Type} [DecidableEq κ]

theorem mem_mentioned {key : κ} {entries : List (κ × α)} :
    key ∈ mentioned entries ↔ key ∈ entries.map Prod.fst :=
  List.mem_eraseDups

theorem mentioned_concat (entries : List (κ × α)) (e : κ × α) : mentioned (entries ++ [e]) =
    if e.1 ∈ mentioned entries then mentioned entries else mentioned entries ++ [e.1] := by
  have hm : mentioned (entries ++ [e]) = (entries.map Prod.fst ++ [e.1]).eraseDups := by
    rw [mentioned, List.map_append, List.map_singleton]
  rw [hm]
  by_cases h : e.1 ∈ mentioned entries
  · rw [if_pos h, eraseDups_concat_of_mem (mem_mentioned.1 h), mentioned]
  · rw [if_neg h, eraseDups_concat_of_not_mem fun hk => h (mem_mentioned.2 hk), mentioned]

theorem listedFor_concat (key : κ) (entries : List (κ × List α)) (e : κ × List α) :
    listedFor key (entries ++ [e]) =
      if e.1 = key then listedFor key entries ++ e.2 else listedFor key entries := by
  by_cases h : e.1 = key <;> simp [listedFor, h]

theorem listedFor_of_not_mem {key : κ} {entries : List (κ × List α)}
    (h : key ∉ entries.map Prod.fst) : listedFor key entries = [] := by
  have hf : entries.filter (·.1 = key) = [] := by
    rw [List.filter_eq_nil_iff]
    intro e he hk
    exact h (of_decide_eq_true hk ▸ List.mem_map_of_mem he)
  rw [listedFor, hf]
  rfl

/-- Leaving out all entries of some keys leaves the order of the others. -/
theorem mentioned_filter (keep : κ → Bool) (entries : List (κ × α)) :
    mentioned (entries.filter fun e => keep e.1) = (mentioned entries).filter keep := by
  induction entries using List.reverseRecOn with
  | nil => rfl
  | append_singleton entries e ih =>
    rw [List.filter_append, mentioned_concat]
    cases hk : keep e.1 with
    | false =>
      rw [List.filter_cons_of_neg (by simp [hk]), List.filter_nil, List.append_nil, ih]
      split
      · rfl
      · simp [hk]
    | true =>
      have hm : e.1 ∈ (mentioned entries).filter keep ↔ e.1 ∈ mentioned entries := by simp [hk]
      rw [List.filter_cons_of_pos (by simp [hk]), List.filter_nil, mentioned_concat, ih]
      simp only [hm]
      split
      · rfl
      · simp [hk]

theorem listedFor_filter (keep : κ → Bool) {key : κ} (h : keep key = true)
    (entries : List (κ × List α)) :
    listedFor key (entries.filter fun e => keep e.1) = listedFor key entries := by
  rw [listedFor, listedFor, List.filter_filter]
  refine congrArg (List.flatMap _) (List.filter_congr fun e _ => ?_)
  by_cases he : e.1 = key
  · simp [he, h]
  · simp [he]

/-- Changing the values of entries, by their key perhaps, leaves the order of their keys. -/
theorem mentioned_map (f : κ → α → β) (entries : List (κ × α)) :
    mentioned (entries.map fun e => (e.1, f e.1 e.2)) = mentioned entries := by
  simp [mentioned, Function.comp_def]

/-- Changing listed values, by their key perhaps, leaves their order. -/
theorem listedFor_map (f : κ → α → β) (key : κ) (entries : List (κ × List α)) :
    listedFor key (entries.map fun e => (e.1, e.2.map (f e.1))) =
      (listedFor key entries).map (f key) := by
  induction entries using List.reverseRecOn with
  | nil => rfl
  | append_singleton entries e ih =>
    rw [List.map_append, List.map_singleton, listedFor_concat, listedFor_concat, ih]
    by_cases h : e.1 = key
    · rw [if_pos h, if_pos h, List.map_append, h]
    · rw [if_neg h, if_neg h]

namespace Catalog

/-- Keys that are there keep their places; those that the entries mention first follow. -/
theorem keys_foldl_alter_onto (change : κ × β → Option α → α) (c : Catalog κ α)
    (entries : List (κ × β)) :
    (entries.foldl (fun c e => c.alter e.1 (change e)) c).keys =
      c.keys ++ (mentioned entries).filter (· ∉ c.keys) := by
  induction entries using List.reverseRecOn with
  | nil => exact (List.append_nil _).symm
  | append_singleton entries e ih =>
    rw [List.foldl_append, mentioned_concat]
    refine (keys_alter _ _ _).trans ?_
    rw [ih]
    by_cases hs : e.1 ∈ c.keys <;> by_cases hm : e.1 ∈ mentioned entries <;> simp [hs, hm]

/-- Changing one value after another puts every key where it is mentioned first. -/
theorem keys_foldl_alter (change : κ × β → Option α → α) (entries : List (κ × β)) :
    (entries.foldl (fun c e => c.alter e.1 (change e)) Catalog.empty).keys = mentioned entries := by
  simp [keys_foldl_alter_onto]

/-- Where adding one list after another is adding both as one, all that the entries list under a key
is added to its list, if they mention it at all. -/
theorem get?_foldl_alter {add : List α → List β → List α} (hnil : ∀ l, add l [] = l)
    (happend : ∀ l b₁ b₂, add l (b₁ ++ b₂) = add (add l b₁) b₂) (c : Catalog κ (List α))
    (entries : List (κ × List β)) (key : κ) :
    (entries.foldl (fun c e => c.alter e.1 fun old => add (old.getD []) e.2) c).get? key =
      if key ∈ entries.map Prod.fst then some (add ((c.get? key).getD []) (listedFor key entries))
      else c.get? key := by
  induction entries using List.reverseRecOn generalizing key with
  | nil => rfl
  | append_singleton entries e ih =>
    rw [List.foldl_append]
    refine (get?_alter _ _ _ _).trans ?_
    by_cases h : key = e.1
    · subst h
      have hold : ((entries.foldl (fun c e => c.alter e.1 fun old => add (old.getD []) e.2) c).get?
          e.1).getD [] = add ((c.get? e.1).getD []) (listedFor e.1 entries) := by
        rw [ih]
        by_cases hm : e.1 ∈ entries.map Prod.fst
        · rw [if_pos hm]
          rfl
        · rw [if_neg hm, listedFor_of_not_mem hm, hnil]
      rw [if_pos rfl, if_pos (by simp), hold, listedFor_concat, if_pos rfl, happend]
    · have hm : key ∈ (entries ++ [e]).map Prod.fst ↔ key ∈ entries.map Prod.fst := by
        simp [h]
      rw [if_neg h, ih, listedFor_concat, if_neg (Ne.symm h)]
      simp only [hm]

/-- Of the values put in for a key the last one stays. -/
theorem get?_foldl_insert_of_last (c : Catalog κ α) (before : List (κ × α)) (e : κ × α)
    {after : List (κ × α)} (h : e.1 ∉ after.map Prod.fst) :
    ((before ++ e :: after).foldl (fun c e => c.insert e.1 e.2) c).get? e.1 = some e.2 := by
  induction after using List.reverseRecOn with
  | nil =>
    rw [List.foldl_append]
    exact (get?_insert _ _ _ _).trans (if_pos rfl)
  | append_singleton after d ih =>
    rw [List.map_append, List.mem_append, not_or] at h
    have hd : e.1 ≠ d.1 := fun he => h.2 (he ▸ List.mem_singleton_self _)
    rw [← List.cons_append, ← List.append_assoc, List.foldl_append]
    exact ((get?_insert _ _ _ _).trans (if_neg hd)).trans (ih h.1)

/-- Appends entries one after another. -/
def appendAll (c : Catalog κ (List α)) (entries : List (κ × List α)) : Catalog κ (List α) :=
  entries.foldl (fun c e => c.append e.1 e.2) c

theorem keys_appendAll_empty (entries : List (κ × List α)) :
    (Catalog.empty.appendAll entries).keys = mentioned entries :=
  keys_foldl_alter (fun e old => old.getD [] ++ e.2) entries

theorem get?_appendAll_empty (entries : List (κ × List α)) (key : κ) :
    (Catalog.empty.appendAll entries).get? key =
      if key ∈ entries.map Prod.fst then some (listedFor key entries) else none :=
  get?_foldl_alter List.append_nil (fun _ _ _ => (List.append_assoc _ _ _).symm) Catalog.empty
    entries key

/-- What entries list under a key is what a catalog lists there to which they were appended. -/
theorem getD_get?_appendAll_empty (entries : List (κ × List α)) (key : κ) :
    ((Catalog.empty.appendAll entries).get? key).getD [] = listedFor key entries := by
  rw [get?_appendAll_empty]
  split
  · rfl
  · next h => exact (listedFor_of_not_mem h).symm

theorem entries_appendAll_empty (entries : List (κ × List α)) :
    (Catalog.empty.appendAll entries).entries =
      (mentioned entries).map fun key => (key, listedFor key entries) := by
  rw [← keys_appendAll_empty entries]
  apply entries_eq_map_keys
  intro key hk
  rw [keys_appendAll_empty, mem_mentioned] at hk
  rw [get?_appendAll_empty, if_pos hk]

/-- A catalog of lists is what its entries make when they are appended one after another. -/
theorem appendAll_entries (c : Catalog κ (List α)) : Catalog.empty.appendAll c.entries = c := by
  apply ext
  have h := entries_foldl_alter (fun (e : κ × List α) old => old.getD [] ++ e.2) c.distinct
    Catalog.empty (by simp)
  exact h.trans (List.map_id' _)

end Catalog
end Implementors
