/-!
# Maps with ordered text keys

A map from texts to values, kept as the list of its entries in increasing order of their keys;
texts are compared by code points.  A later insertion under the same key replaces the value.

* `KeyMap.insert`, `KeyMap.get?` — the operations.
* `insertEntries_of_increasing` — entries in order stay as they are.
* `KeyMap.get?_insert_self`, `KeyMap.get?_insert_of_ne` — what an insertion changes.
-/

namespace QueryTree

variable {α : Type}

/-! ### Entry lists -/

/-- Puts an entry where its key belongs, in place of an entry with the same key. -/
def insertEntry (key : String) (value : α) : List (String × α) → List (String × α)
  | [] => [(key, value)]
  | (k, v) :: rest =>
    if key < k then (key, value) :: (k, v) :: rest
    else if key = k then (key, value) :: rest
    else (k, v) :: insertEntry key value rest

/-- Puts entries where their keys belong, one after the other. -/
def insertEntries (added entries : List (String × α)) : List (String × α) :=
  added.foldl (fun es e => insertEntry e.1 e.2 es) entries

/-- The value of the first entry with this key. -/
def entryAt? (key : String) : List (String × α) → Option α
  | [] => none
  | (k, v) :: rest => if key = k then some v else entryAt? key rest

/-- The entries have strictly increasing keys. -/
def Increasing (entries : List (String × α)) : Prop :=
  entries.Pairwise fun a b => a.1 < b.1

theorem forall_insertEntry {p : String → Prop} {key : String} {value : α}
    {entries : List (String × α)} (hk : p key) (h : ∀ e ∈ entries, p e.1) :
    ∀ e ∈ insertEntry key value entries, p e.1 := by
  induction entries with
  | nil => simpa [insertEntry] using hk
  | cons e rest ih =>
    have ih := ih fun e' he' => h e' (List.mem_cons_of_mem _ he')
    have hr : ∀ e' ∈ rest, p e'.1 := fun e' he' => h e' (List.mem_cons_of_mem _ he')
    have he := h e List.mem_cons_self
    obtain ⟨k, v⟩ := e
    unfold insertEntry
    intro e' he'
    split at he'
    · rcases List.mem_cons.1 he' with rfl | he'
      · exact hk
      · exact h e' he'
    · split at he'
      · rcases List.mem_cons.1 he' with rfl | he'
        · exact hk
        · exact hr e' he'
      · rcases List.mem_cons.1 he' with rfl | he'
        · exact he
        · exact ih e' he'

theorem increasing_insertEntry {key : String} {value : α} {entries : List (String × α)}
    (h : Increasing entries) : Increasing (insertEntry key value entries) := by
  induction entries with
  | nil => simp [insertEntry, Increasing]
  | cons e rest ih =>
    obtain ⟨k, v⟩ := e
    obtain ⟨hk, hr⟩ := List.pairwise_cons.1 h
    -- the new key comes in front, is the first one, or belongs further behind
    unfold insertEntry
    split
    · next hlt =>
      refine List.pairwise_cons.2 ⟨fun e he => ?_, h⟩
      rcases List.mem_cons.1 he with rfl | he
      · exact hlt
      · exact String.lt_trans hlt (hk e he)
    · next hnlt =>
      split
      · next heq => exact List.pairwise_cons.2 ⟨fun e he => heq ▸ hk e he, hr⟩
      · next hne =>
        have hlt : k < key := by
          rcases Std.le_total (a := k) (b := key) with hle | hle
          · exact Std.lt_of_le_of_ne hle (Ne.symm hne)
          · exact absurd (Std.lt_of_le_of_ne hle hne) hnlt
        exact List.pairwise_cons.2 ⟨forall_insertEntry (p := (k < ·)) hlt hk, ih hr⟩

theorem entryAt?_insertEntry_self {key : String} {value : α} {entries : List (String × α)} :
    entryAt? key (insertEntry key value entries) = some value := by
  induction entries with
  | nil => simp [insertEntry, entryAt?]
  | cons e rest ih =>
    unfold insertEntry
    split
    · simp [entryAt?]
    · split
      · simp [entryAt?]
      · next hne => simp [entryAt?, hne, ih]

theorem entryAt?_insertEntry_of_ne {key other : String} {value : α}
    {entries : List (String × α)} (h : other ≠ key) :
    entryAt? other (insertEntry key value entries) = entryAt? other entries := by
  induction entries with
  | nil => simp [insertEntry, entryAt?, h]
  | cons e rest ih =>
    unfold insertEntry
    split
    · simp [entryAt?, h]
    · split
      · next heq => simp [entryAt?, h, ← heq]
      · simp [entryAt?, ih]

/-- An entry whose key comes last is put at the end. -/
theorem insertEntry_of_forall_lt {key : String} {value : α} {entries : List (String × α)}
    (h : ∀ e ∈ entries, e.1 < key) : insertEntry key value entries = entries ++ [(key, value)] := by
  induction entries with
  | nil => rfl
  | cons e rest ih =>
    obtain ⟨k, v⟩ := e
    obtain ⟨hk, hr⟩ := List.forall_mem_cons.1 h
    have hk : k < key := hk
    have hnlt : ¬key < k := fun hlt => Std.lt_irrefl (String.lt_trans hk hlt)
    have hne : key ≠ k := fun heq => Std.lt_irrefl (heq ▸ hk : k < k)
    rw [insertEntry, if_neg hnlt, if_neg hne, ih hr, List.cons_append]

/-- Entries in order, whose keys all come after those of the others, are put at the end. -/
theorem insertEntries_of_increasing_append {added entries : List (String × α)}
    (h : Increasing (entries ++ added)) : insertEntries added entries = entries ++ added := by
  -- the entries that are there grow by one at each step
  induction added generalizing entries with
  | nil => exact (List.append_nil entries).symm
  | cons e added ih =>
    have hlast : ∀ e' ∈ entries, e'.1 < e.1 := fun e' he' =>
      (List.pairwise_append.1 h).2.2 e' he' e List.mem_cons_self
    rw [insertEntries, List.foldl_cons, ← insertEntries, insertEntry_of_forall_lt hlast]
    rw [← List.singleton_append, ← List.append_assoc] at h
    rw [ih h, List.append_assoc, List.singleton_append]

theorem insertEntries_of_increasing {added : List (String × α)} (h : Increasing added) :
    insertEntries added [] = added :=
  insertEntries_of_increasing_append h

theorem insertEntries_append (added more entries : List (String × α)) :
    insertEntries (added ++ more) entries = insertEntries more (insertEntries added entries) :=
  List.foldl_append

theorem entryAt?_insertEntries_of_forall_ne {key : String} {added entries : List (String × α)}
    (h : ∀ e ∈ added, e.1 ≠ key) :
    entryAt? key (insertEntries added entries) = entryAt? key entries := by
  induction added generalizing entries with
  | nil => rfl
  | cons e added ih =>
    obtain ⟨he, ha⟩ := List.forall_mem_cons.1 h
    rw [insertEntries, List.foldl_cons, ← insertEntries, ih ha,
      entryAt?_insertEntry_of_ne (Ne.symm he)]

theorem mem_of_mem_insertEntry {key : String} {value : α} {entries : List (String × α)}
    {e : String × α} (h : e ∈ insertEntry key value entries) : e = (key, value) ∨ e ∈ entries := by
  induction entries with
  | nil => exact .inl (List.mem_singleton.1 h)
  | cons e' rest ih =>
    rw [insertEntry] at h
    split at h
    · exact List.mem_cons.1 h
    · split at h
      · exact (List.mem_cons.1 h).imp_right (List.mem_cons_of_mem _)
      · rcases List.mem_cons.1 h with h | h
        · exact .inr (h ▸ List.mem_cons_self)
        · exact (ih h).imp_right (List.mem_cons_of_mem _)

theorem mem_of_mem_insertEntries {added entries : List (String × α)} {e : String × α}
    (h : e ∈ insertEntries added entries) : e ∈ added ∨ e ∈ entries := by
  induction added generalizing entries with
  | nil => exact .inr h
  | cons e' added ih =>
    rcases ih h with h | h
    · exact .inl (List.mem_cons_of_mem _ h)
    · exact (mem_of_mem_insertEntry h).imp_left fun he : e = e' => he ▸ List.mem_cons_self

theorem mem_of_entryAt? {key : String} {value : α} {entries : List (String × α)}
    (h : entryAt? key entries = some value) : (key, value) ∈ entries := by
  induction entries with
  | nil => cases h
  | cons e rest ih =>
    rw [entryAt?] at h
    split at h
    · next hk =>
      cases h
      exact hk ▸ List.mem_cons_self
    · exact List.mem_cons_of_mem _ (ih h)

/-! ### Maps -/

/-- A map with text keys, its entries in increasing order of their keys. -/
structure KeyMap (α : Type) where
  /-- The entries in order. -/
  entries : List (String × α)
  /-- The keys increase. -/
  increasing : Increasing entries

namespace KeyMap

/-- The map without entries. -/
def empty : KeyMap α := ⟨[], List.Pairwise.nil⟩

instance : Inhabited (KeyMap α) := ⟨empty⟩

/-- The map with one entry added or replaced. -/
def insert (m : KeyMap α) (key : String) (value : α) : KeyMap α :=
  ⟨insertEntry key value m.entries, increasing_insertEntry m.increasing⟩

/-- The value under a key. -/
def get? (m : KeyMap α) (key : String) : Option α := entryAt? key m.entries

/-- The map of a list of entries, the last of equal keys winning. -/
def ofList (entries : List (String × α)) : KeyMap α :=
  entries.foldl (fun m e => m.insert e.1 e.2) empty

theorem get?_insert_self (m : KeyMap α) (key : String) (value : α) :
    (m.insert key value).get? key = some value := entryAt?_insertEntry_self

theorem get?_insert_of_ne {m : KeyMap α} {key other : String} {value : α} (h : other ≠ key) :
    (m.insert key value).get? other = m.get? other := entryAt?_insertEntry_of_ne h

end KeyMap

end QueryTree
