import ChunkScope.Document

/-!
# Looking up in keyed lists

What setting and dropping a key does to the values of all keys, to the number of entries and to the
total of a measure over them. None of it needs the entries to be in order; the order is what makes
the list canonical, and an entry that comes behind all others is put at the end.
-/

namespace ChunkScope.Keyed

variable {κ α : Type} [DecidableEq κ]

/-! ## Values -/

/-- The first entry decides for its own key. -/
theorem find?_cons (key k : κ) (a : α) (rest : List (κ × α)) :
    find? key ((k, a) :: rest) = if key = k then some a else find? key rest := rfl

/-- Dropping a key takes its value and leaves every other key alone. -/
theorem find?_erase (key k : κ) (entries : List (κ × α)) :
    find? key (erase k entries) = if key = k then none else find? key entries := by
  induction entries with
  | nil => exact (ite_self none).symm
  | cons entry rest ih =>
    obtain ⟨l, b⟩ := entry
    rw [erase] at ih ⊢
    by_cases hkl : k = l
    · rw [List.filter_cons_of_neg (by simp [hkl]), ih, find?_cons, ← hkl]
      by_cases hk : key = k
      · rw [if_pos hk, if_pos hk]
      · rw [if_neg hk, if_neg hk, if_neg hk]
    · rw [List.filter_cons_of_pos (by simp [hkl]), find?_cons, find?_cons, ih]
      by_cases hk : key = k
      · rw [if_pos hk, if_pos hk, if_neg (fun hl => hkl (hk.symm.trans hl))]
      · rw [if_neg hk, if_neg hk]

/-- A value that is found stands beside its key. -/
theorem mem_of_find?_eq_some {key : κ} {a : α} {entries : List (κ × α)}
    (h : find? key entries = some a) : (key, a) ∈ entries := by
  induction entries with
  | nil => cases h
  | cons entry rest ih =>
    obtain ⟨l, b⟩ := entry
    rw [find?_cons] at h
    split at h
    · next heq =>
      rw [heq, Option.some.inj h]
      exact List.mem_cons_self
    · exact List.mem_cons_of_mem _ (ih h)

variable [LT κ] [DecidableLT κ]

/-- Setting a key gives it the new value and leaves every other key alone. -/
theorem find?_insert (key k : κ) (a : α) (entries : List (κ × α)) :
    find? key (insert k a entries) = if key = k then some a else find? key entries := by
  induction entries with
  | nil => rfl
  | cons entry rest ih =>
    obtain ⟨l, b⟩ := entry
    rw [insert]
    split
    · rw [find?_cons]
    · split
      · next hkl =>
        rw [find?_cons, find?_cons, ← hkl]
        by_cases hk : key = k
        · rw [if_pos hk, if_pos hk]
        · rw [if_neg hk, if_neg hk, if_neg hk]
      · next hkl =>
        rw [find?_cons, find?_cons, ih]
        by_cases hk : key = k
        · rw [if_pos hk, if_pos hk, if_neg (fun hl => hkl (hk.symm.trans hl))]
        · rw [if_neg hk, if_neg hk]

/-- A key that comes behind all others is put at the end. -/
theorem insert_eq_append {key : κ} (a : α) {entries : List (κ × α)}
    (h : ∀ entry ∈ entries, ¬ key < entry.1 ∧ key ≠ entry.1) :
    insert key a entries = entries ++ [(key, a)] := by
  induction entries with
  | nil => rfl
  | cons entry rest ih =>
    obtain ⟨l, b⟩ := entry
    obtain ⟨hlt, hne⟩ := h (l, b) (by simp)
    have hrest := ih fun entry hentry => h entry (List.mem_cons_of_mem _ hentry)
    rw [insert, if_neg hlt, if_neg hne, hrest]
    rfl

/-! ## Order -/

omit [DecidableLT κ] in
/-- In ascending order each key has the value that stands beside it. -/
theorem find?_eq_some_iff_mem (hasymm : ∀ {k l : κ}, k < l → ¬ l < k) {key : κ} {a : α}
    {entries : List (κ × α)} (h : entries.Pairwise fun x y => x.1 < y.1) :
    find? key entries = some a ↔ (key, a) ∈ entries := by
  refine ⟨mem_of_find?_eq_some, fun hmem => ?_⟩
  induction entries with
  | nil => cases hmem
  | cons entry rest ih =>
    obtain ⟨l, b⟩ := entry
    obtain ⟨hfirst, hrest⟩ := List.pairwise_cons.mp h
    rw [find?_cons]
    rcases List.mem_cons.mp hmem with heq | hbehind
    · cases heq
      rw [if_pos rfl]
    · have hlt : l < key := hfirst _ hbehind
      have hne : key ≠ l := by
        rintro rfl
        exact hasymm hlt hlt
      rw [if_neg hne]
      exact ih hrest hbehind

omit [DecidableLT κ] in
/-- Lists in ascending order are the same when each key has the same value in both. -/
theorem eq_of_find?_eq (hasymm : ∀ {k l : κ}, k < l → ¬ l < k) {entries others : List (κ × α)}
    (h : entries.Pairwise fun x y => x.1 < y.1) (h' : others.Pairwise fun x y => x.1 < y.1)
    (hfind : ∀ key, find? key entries = find? key others) : entries = others := by
  have hnodup {list : List (κ × α)} (hlist : list.Pairwise fun x y => x.1 < y.1) :
      list.Nodup := by
    refine hlist.imp ?_
    rintro entry _ hlt rfl
    exact hasymm hlt hlt
  have hmem : ∀ entry, entry ∈ entries ↔ entry ∈ others := by
    intro entry
    rw [← find?_eq_some_iff_mem hasymm h, hfind, find?_eq_some_iff_mem hasymm h']
  have hperm : entries.Perm others :=
    (List.perm_ext_iff_of_nodup (hnodup h) (hnodup h')).mpr hmem
  exact hperm.eq_of_pairwise (fun _ _ _ _ hlt hgt => absurd hgt (hasymm hlt)) h h'

/-- Behind a change there is the new entry, or one that was there. -/
theorem eq_or_mem_of_mem_insert {key : κ} {a : α} {entry : κ × α} {entries : List (κ × α)}
    (h : entry ∈ insert key a entries) : entry = (key, a) ∨ entry ∈ entries := by
  induction entries with
  | nil => exact .inl (List.mem_singleton.mp h)
  | cons first rest ih =>
    obtain ⟨l, b⟩ := first
    rw [insert] at h
    split at h
    · exact List.mem_cons.mp h
    · split at h
      · rcases List.mem_cons.mp h with h | h
        · exact .inl h
        · exact .inr (List.mem_cons_of_mem _ h)
      · rcases List.mem_cons.mp h with h | h
        · exact .inr (h ▸ List.mem_cons_self)
        · exact (ih h).imp_right (List.mem_cons_of_mem _)

/-- Setting a key keeps the keys in ascending order, when the order of the keys is linear. -/
theorem pairwise_insert (htrans : ∀ {j k l : κ}, j < k → k < l → j < l)
    (htotal : ∀ {k l : κ}, ¬ k < l → k ≠ l → l < k) (key : κ) (a : α) {entries : List (κ × α)}
    (h : entries.Pairwise fun x y => x.1 < y.1) :
    (insert key a entries).Pairwise fun x y => x.1 < y.1 := by
  induction entries with
  | nil => exact List.pairwise_singleton _ _
  | cons first rest ih =>
    obtain ⟨l, b⟩ := first
    obtain ⟨hfirst, hrest⟩ := List.pairwise_cons.mp h
    rw [insert]
    split
    · next hlt =>
      refine List.pairwise_cons.mpr ⟨?_, h⟩
      intro entry hentry
      rcases List.mem_cons.mp hentry with rfl | hentry
      · exact hlt
      · exact htrans hlt (hfirst entry hentry)
    · next hlt =>
      split
      · next heq =>
        rw [heq]
        exact List.pairwise_cons.mpr ⟨hfirst, hrest⟩
      · next hne =>
        refine List.pairwise_cons.mpr ⟨?_, ih hrest⟩
        intro entry hentry
        rcases eq_or_mem_of_mem_insert hentry with rfl | hentry
        · exact htotal hlt hne
        · exact hfirst entry hentry

omit [DecidableLT κ] in
/-- Dropping a key keeps the order of the others. -/
theorem pairwise_erase (key : κ) {entries : List (κ × α)}
    (h : entries.Pairwise fun x y => x.1 < y.1) :
    (erase key entries).Pairwise fun x y => x.1 < y.1 :=
  h.filter _

/-! ## Texts as keys -/

section Texts

variable {name : String} {entries : List (String × α)}

/-- A change leaves the texts of keys in order. -/
theorem pairwise_insert_text (name : String) (a : α)
    (h : entries.Pairwise fun x y => x.1 < y.1) :
    (insert name a entries).Pairwise fun x y => x.1 < y.1 := by
  refine pairwise_insert String.lt_trans ?_ name a h
  intro k l hlt hne
  exact Std.lt_of_le_of_ne (String.not_lt.mp hlt) hne.symm

/-- Under a text there is the value of its entry. -/
theorem find?_text_eq_some_iff_mem {a : α} (h : entries.Pairwise fun x y => x.1 < y.1) :
    find? name entries = some a ↔ (name, a) ∈ entries :=
  find?_eq_some_iff_mem String.lt_asymm h

/-- Setting a text gives it the new value alone and leaves the other entries. -/
theorem mem_insert_text_iff {key : String} {a b : α} (h : entries.Pairwise fun x y => x.1 < y.1) :
    (key, b) ∈ insert name a entries ↔ if key = name then b = a else (key, b) ∈ entries := by
  rw [← find?_text_eq_some_iff_mem (pairwise_insert_text name a h), find?_insert]
  split
  · rw [Option.some_inj, eq_comm]
  · exact find?_text_eq_some_iff_mem h

end Texts

/-! ## Totals -/

omit [DecidableEq κ] [LT κ] [DecidableLT κ] in
theorem total_cons (measure : α → Nat) (entry : κ × α) (rest : List (κ × α)) :
    total measure (entry :: rest) = measure entry.2 + total measure rest := rfl

/-- A key that was not there adds what a measure says of its value to the total of the measure. -/
theorem total_insert_of_find?_eq_none (measure : α → Nat) {k : κ} (a : α)
    {entries : List (κ × α)} (h : find? k entries = none) :
    total measure (insert k a entries) = total measure entries + measure a := by
  induction entries with
  | nil => exact Nat.add_comm _ _
  | cons entry rest ih =>
    obtain ⟨l, b⟩ := entry
    rw [find?_cons] at h
    have hkl : k ≠ l := fun hkl => by simp [hkl] at h
    rw [if_neg hkl] at h
    rw [insert, if_neg hkl]
    split
    · rw [total_cons, Nat.add_comm]
    · rw [total_cons, total_cons, ih h, Nat.add_assoc]

/-- A key that gets another value changes the total by the difference between its two values. -/
theorem total_insert_of_find?_eq_some (hasymm : ∀ {k l : κ}, k < l → ¬ l < k)
    (measure : α → Nat) {k : κ} (a : α) {b : α} {entries : List (κ × α)}
    (h : entries.Pairwise fun x y => x.1 < y.1) (hfind : find? k entries = some b) :
    total measure (insert k a entries) + measure b = total measure entries + measure a := by
  induction entries with
  | nil => cases hfind
  | cons entry rest ih =>
    obtain ⟨l, c⟩ := entry
    obtain ⟨hfirst, hrest⟩ := List.pairwise_cons.mp h
    rw [find?_cons] at hfind
    rw [insert]
    by_cases hkl : k = l
    · have hself : ¬ k < l := fun hlt => by
        rw [hkl] at hlt
        exact hasymm hlt hlt
      rw [if_pos hkl] at hfind
      rw [if_neg hself, if_pos hkl, total_cons, total_cons, ← Option.some.inj hfind]
      dsimp only
      omega
    · rw [if_neg hkl] at hfind
      -- the key stands in the rest, so it comes behind the first one
      have hbehind : ¬ k < l := hasymm (hfirst _ (mem_of_find?_eq_some hfind))
      have hrec := ih hrest hfind
      rw [if_neg hbehind, if_neg hkl, total_cons, total_cons]
      omega

omit [DecidableEq κ] [LT κ] [DecidableLT κ] in
/-- Counted by ones, the total is the number of entries. -/
theorem total_one (entries : List (κ × α)) : total (fun _ => 1) entries = entries.length := by
  induction entries with
  | nil => rfl
  | cons entry rest ih => rw [total_cons, ih, List.length_cons, Nat.add_comm]

/-- A key that was not there adds one entry. -/
theorem length_insert_of_find?_eq_none {k : κ} (a : α) {entries : List (κ × α)}
    (h : find? k entries = none) : (insert k a entries).length = entries.length + 1 := by
  rw [← total_one, ← total_one]
  exact total_insert_of_find?_eq_none (fun _ => 1) a h

/-- A key that gets another value leaves the number of entries. -/
theorem length_insert_of_find?_eq_some (hasymm : ∀ {k l : κ}, k < l → ¬ l < k) {k : κ} (a : α)
    {b : α} {entries : List (κ × α)} (h : entries.Pairwise fun x y => x.1 < y.1)
    (hfind : find? k entries = some b) : (insert k a entries).length = entries.length := by
  rw [← total_one, ← total_one]
  exact Nat.add_right_cancel (total_insert_of_find?_eq_some hasymm (fun _ => 1) a h hfind)

end ChunkScope.Keyed
