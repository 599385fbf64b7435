import Mathlib.Data.List.Induction
import Mathlib.Tactic.Lemma
import Retouch.SortedMap

/-! Looking up keys in maps that have changed. A map is seen through its lookups alone. -/
namespace Retouch.SortedMap

variable {κ ν : Type} [Ord κ] [Std.LawfulEqOrd κ]

lemma mem_of_lookup {key : κ} {value : ν} {entries : List (κ × ν)}
    (h : lookup key entries = some value) : (key, value) ∈ entries := by
  induction entries with
  | nil => cases h
  | cons e entries ih =>
    obtain ⟨k, v⟩ := e
    simp only [lookup] at h
    split at h
    · next heq =>
      obtain rfl := Std.LawfulEqCmp.eq_of_compare heq
      cases h
      exact List.mem_cons_self
    · exact List.mem_cons_of_mem _ (ih h)

lemma mem_of_get? {m : SortedMap κ ν} {key : κ} {value : ν} (h : m.get? key = some value) :
    (key, value) ∈ m.entries :=
  mem_of_lookup h

lemma get?_ne_none_of_mem_keys {m : SortedMap κ ν} {key : κ} (h : key ∈ m.keys) :
    m.get? key ≠ none := by
  have hentries (entries : List (κ × ν)) (h : key ∈ entries.map (·.1)) :
      lookup key entries ≠ none := by
    induction entries with
    | nil => cases h
    | cons e entries ih =>
      obtain ⟨k, v⟩ := e
      rw [lookup]
      split
      · nofun
      · next hne =>
        rcases List.mem_cons.1 h with rfl | h
        · exact absurd Std.ReflCmp.compare_self hne
        · exact ih h
  exact hentries m.entries h

lemma lookup_insertEntry [DecidableEq κ] (key other : κ) (value : ν) (entries : List (κ × ν)) :
    lookup other (insertEntry key value entries) =
      if other = key then some value else lookup other entries := by
  induction entries with
  | nil =>
    by_cases h : other = key
    · simp [insertEntry, lookup, h]
    · have hne : compare other key ≠ .eq := fun heq => h (Std.LawfulEqCmp.eq_of_compare heq)
      simp [insertEntry, lookup, h, hne]
  | cons e entries ih =>
    obtain ⟨k, v⟩ := e
    by_cases h : other = key
    · subst h
      simp only [insertEntry]
      split
      · simp [lookup]
      · simp [lookup]
      · next hgt => simp [lookup, hgt, ih]
    · have hne : compare other key ≠ .eq := fun heq => h (Std.LawfulEqCmp.eq_of_compare heq)
      simp only [insertEntry]
      split
      · simp [lookup, hne, h]
      · next heq =>
        obtain rfl := Std.LawfulEqCmp.eq_of_compare heq
        simp [lookup, hne, h]
      · simp [lookup, ih, h]

lemma lookup_filter [DecidableEq κ] (key other : κ) (entries : List (κ × ν)) :
    lookup other (entries.filter fun e => compare key e.1 != .eq) =
      if other = key then none else lookup other entries := by
  induction entries with
  | nil => simp [lookup]
  | cons e entries ih =>
    obtain ⟨k, v⟩ := e
    by_cases hk : compare key k = .eq
    · obtain rfl := Std.LawfulEqCmp.eq_of_compare hk
      rw [List.filter_cons_of_neg (by simp), ih]
      by_cases h : other = key
      · simp [h]
      · have hne : compare other key ≠ .eq := fun heq => h (Std.LawfulEqCmp.eq_of_compare heq)
        simp [lookup, h, hne]
    · rw [List.filter_cons_of_pos (by simp [hk])]
      simp only [lookup, ih]
      by_cases h : other = key
      · subst h
        simp only [if_neg hk, ↓reduceIte]
      · simp only [if_neg h]

lemma insertEntry_insertEntry (key : κ) (first last : ν) (entries : List (κ × ν)) :
    insertEntry key last (insertEntry key first entries) = insertEntry key last entries := by
  induction entries with
  | nil => simp [insertEntry]
  | cons e entries ih =>
    obtain ⟨k, v⟩ := e
    cases h : compare key k <;> simp [insertEntry, h, ih]

variable [Std.TransOrd κ]

lemma insertEntry_of_lookup {key : κ} {value : ν} {entries : List (κ × ν)}
    (hsorted : entries.Pairwise fun a b => compare a.1 b.1 = .lt)
    (h : lookup key entries = some value) : insertEntry key value entries = entries := by
  induction entries with
  | nil => cases h
  | cons e entries ih =>
    obtain ⟨k, v⟩ := e
    obtain ⟨hfirst, hrest⟩ := List.pairwise_cons.1 hsorted
    simp only [lookup] at h
    split at h
    · next heq =>
      obtain rfl := Std.LawfulEqCmp.eq_of_compare heq
      cases h
      simp [insertEntry]
    · have hlt : compare k key = .lt := hfirst _ (mem_of_lookup h)
      have hgt : compare key k = .gt := Std.OrientedCmp.gt_iff_lt.2 hlt
      simp [insertEntry, hgt, ih hrest h]

/-- An entry that is there already can be put in once more. -/
lemma insert_of_get? {m : SortedMap κ ν} {key : κ} {value : ν} (h : m.get? key = some value) :
    m.insert key value = m :=
  SortedMap.ext (insertEntry_of_lookup m.increasing h)

@[simp] lemma insert_insert (m : SortedMap κ ν) (key : κ) (first last : ν) :
    (m.insert key first).insert key last = m.insert key last :=
  SortedMap.ext (insertEntry_insertEntry key first last m.entries)

omit [Std.LawfulEqOrd κ] in
/-- An entry that belongs behind all others is put at the end. -/
lemma insertEntry_of_greater {key : κ} {value : ν} {entries : List (κ × ν)}
    (h : ∀ e ∈ entries, compare e.1 key = .lt) :
    insertEntry key value entries = entries ++ [(key, value)] := by
  induction entries with
  | nil => rfl
  | cons e entries ih =>
    obtain ⟨hfirst, hrest⟩ := List.forall_mem_cons.1 h
    have hgt : compare key e.1 = .gt := Std.OrientedCmp.gt_iff_lt.2 hfirst
    rw [insertEntry, hgt, ih hrest]
    rfl

/-- A map is put together again from its entries. -/
lemma ofList_entries (m : SortedMap κ ν) : ofList m.entries = m := by
  have hfold (entries : List (κ × ν)) (start : SortedMap κ ν)
      (h : (start.entries ++ entries).Pairwise fun a b => compare a.1 b.1 = .lt) :
      (entries.foldl (fun m e => m.insert e.1 e.2) start).entries = start.entries ++ entries := by
    induction entries generalizing start with
    | nil => simp
    | cons e entries ih =>
      have hlast : (start.insert e.1 e.2).entries = start.entries ++ [e] :=
        insertEntry_of_greater fun d hd =>
          (List.pairwise_append.1 h).2.2 d hd e List.mem_cons_self
      rw [List.foldl_cons, ih _ (by rwa [hlast, List.append_assoc]), hlast, List.append_assoc]
      rfl
  exact SortedMap.ext (hfold m.entries empty m.increasing)

variable [DecidableEq κ]

@[simp] lemma get?_insert (m : SortedMap κ ν) (key other : κ) (value : ν) :
    (m.insert key value).get? other = if other = key then some value else m.get? other :=
  lookup_insertEntry key other value m.entries

omit [Std.TransOrd κ] in
@[simp] lemma get?_erase (m : SortedMap κ ν) (key other : κ) :
    (m.erase key).get? other = if other = key then none else m.get? other :=
  lookup_filter key other m.entries

/-- Of several entries with one key, the last counts. -/
lemma get?_ofList (entries : List (κ × ν)) (key : κ) :
    (ofList entries).get? key = (entries.reverse.find? (·.1 = key)).map (·.2) := by
  induction entries using List.reverseRecOn with
  | nil => rfl
  | append_singleton entries e ih =>
    have hlast : ofList (entries ++ [e]) = (ofList entries).insert e.1 e.2 := by
      rw [ofList, List.foldl_append]
      rfl
    rw [hlast, get?_insert, ih, List.reverse_append, List.reverse_singleton, List.singleton_append, List.find?_cons]
    by_cases h : e.1 = key
    · simp [h]
    · simp [h, Ne.symm h]

end Retouch.SortedMap
