import Mathlib.Data.List.Nodup
import Mathlib.Tactic

/-!
# Insertion-ordered dictionaries

A dictionary is the list of its entries in insertion order.  Storing under a
key that is present replaces the value in place; a new key goes to the end.
-/

namespace Dict

variable {κ α : Type} [DecidableEq κ]

/-- `d[k] = v`. -/
def insert (k : κ) (v : α) : List (κ × α) → List (κ × α)
  | [] => [(k, v)]
  | entry :: entries =>
      if entry.1 = k then (k, v) :: entries else entry :: insert k v entries

/-- The dictionary of a sequence of entries, stored one after the other. -/
def ofEntries (entries : List (κ × α)) : List (κ × α) :=
  entries.foldl (fun dict entry => insert entry.1 entry.2 dict) []

/-- `d.get(k)`. -/
def get? (dict : List (κ × α)) (k : κ) : Option α :=
  (dict.find? fun entry => entry.1 = k).map Prod.snd

/-- The keys in insertion order. -/
def keys (dict : List (κ × α)) : List κ := dict.map Prod.fst

theorem keys_insert (k : κ) (v : α) (dict : List (κ × α)) :
    keys (insert k v dict) =
      if k ∈ keys dict then keys dict else keys dict ++ [k] := by
  induction dict with
  | nil => rfl
  | cons entry entries ih =>
      unfold insert
      by_cases here : entry.1 = k
      · have present : k ∈ keys (entry :: entries) := by
          rw [← here]
          exact List.mem_cons_self
        rw [if_pos here, if_pos present, keys, List.map_cons, keys, List.map_cons, here]
      · have later : k ∈ keys (entry :: entries) ↔ k ∈ keys entries := by
          constructor
          · intro member
            rcases List.mem_cons.mp member with same | rest
            · exact (here same.symm).elim
            · exact rest
          · exact List.mem_cons_of_mem _
        have head : keys (entry :: insert k v entries) =
            entry.1 :: keys (insert k v entries) := rfl
        rw [if_neg here, head, ih]
        simp only [later]
        split <;> rfl

theorem keys_nodup_insert {k : κ} {v : α} {dict : List (κ × α)}
    (nodup : (keys dict).Nodup) : (keys (insert k v dict)).Nodup := by
  rw [keys_insert]
  split
  · exact nodup
  · rename_i absent
    exact nodup.append (List.nodup_singleton k) (by simpa using absent)

theorem keys_nodup_foldl {entries dict : List (κ × α)} (nodup : (keys dict).Nodup) :
    (keys (entries.foldl (fun dict entry => insert entry.1 entry.2 dict) dict)).Nodup := by
  induction entries generalizing dict with
  | nil => exact nodup
  | cons entry entries ih => exact ih (keys_nodup_insert nodup)

/-- The keys of a dictionary are distinct. -/
theorem keys_nodup (entries : List (κ × α)) : (keys (ofEntries entries)).Nodup :=
  keys_nodup_foldl List.nodup_nil

theorem mem_keys_foldl {entries dict : List (κ × α)} {k : κ} :
    k ∈ keys (entries.foldl (fun dict entry => insert entry.1 entry.2 dict) dict) ↔
      k ∈ keys dict ∨ k ∈ keys entries := by
  induction entries generalizing dict with
  | nil => simp [keys]
  | cons entry entries ih =>
      have inserted : k ∈ keys (insert entry.1 entry.2 dict) ↔
          k ∈ keys dict ∨ k = entry.1 := by
        rw [keys_insert]
        split
        · rename_i present
          constructor
          · exact .inl
          · rintro (member | rfl)
            · exact member
            · exact present
        · simp
      rw [List.foldl_cons, ih, inserted]
      simp [keys, or_assoc]

theorem mem_keys {entries : List (κ × α)} {k : κ} :
    k ∈ keys (ofEntries entries) ↔ k ∈ keys entries := by
  rw [ofEntries, mem_keys_foldl]
  simp [keys]

theorem keys_foldl_of_nodup {entries dict : List (κ × α)}
    (nodup : (keys dict ++ keys entries).Nodup) :
    keys (entries.foldl (fun dict entry => insert entry.1 entry.2 dict) dict) =
      keys dict ++ keys entries := by
  induction entries generalizing dict with
  | nil => simp [keys]
  | cons entry entries ih =>
      have split : keys (entry :: entries) = [entry.1] ++ keys entries := rfl
      rw [split, ← List.append_assoc] at nodup
      have absent : entry.1 ∉ keys dict := by
        intro member
        have apart := List.disjoint_of_nodup_append nodup.of_append_left
        exact apart member (List.mem_singleton_self _)
      have inserted : keys (insert entry.1 entry.2 dict) = keys dict ++ [entry.1] := by
        rw [keys_insert, if_neg absent]
      rw [List.foldl_cons, ih (by rwa [inserted]), inserted, split, List.append_assoc]

theorem keys_of_nodup {entries : List (κ × α)} (nodup : (keys entries).Nodup) :
    keys (ofEntries entries) = keys entries := by
  have start : (keys ([] : List (κ × α)) ++ keys entries).Nodup := by
    simpa [keys] using nodup
  exact keys_foldl_of_nodup start

/-- A dictionary has as many entries as were stored exactly when no key was
stored twice. -/
theorem length_ofEntries_eq_iff {entries : List (κ × α)} :
    (ofEntries entries).length = entries.length ↔ (keys entries).Nodup := by
  constructor
  · intro length
    have subset : keys (ofEntries entries) ⊆ keys entries :=
      fun k member => mem_keys.mp member
    have perm := ((keys_nodup entries).subperm subset).perm_of_length_le
      (by simp [keys, length])
    exact perm.nodup_iff.mp (keys_nodup entries)
  · intro nodup
    have same := congrArg List.length (keys_of_nodup nodup)
    simpa [keys] using same

theorem insert_of_absent {k : κ} {v : α} {dict : List (κ × α)} (absent : k ∉ keys dict) :
    insert k v dict = dict ++ [(k, v)] := by
  induction dict with
  | nil => rfl
  | cons entry entries ih =>
      have different : entry.1 ≠ k := by
        intro same
        exact absent (same ▸ List.mem_cons_self)
      have absentLater : k ∉ keys entries := fun later => absent (List.mem_cons_of_mem _ later)
      rw [insert, if_neg different, ih absentLater, List.cons_append]

/-- Entries under distinct keys are their own dictionary. -/
theorem ofEntries_of_nodup {entries : List (κ × α)} (nodup : (keys entries).Nodup) :
    ofEntries entries = entries := by
  have run : ∀ rest dict : List (κ × α), (keys dict ++ keys rest).Nodup →
      rest.foldl (fun dict entry => insert entry.1 entry.2 dict) dict = dict ++ rest := by
    intro rest
    induction rest with
    | nil =>
        intro dict _
        simp
    | cons entry rest ih =>
        intro dict distinct
        have split : keys (entry :: rest) = [entry.1] ++ keys rest := rfl
        rw [split, ← List.append_assoc] at distinct
        have absent : entry.1 ∉ keys dict := by
          intro member
          have apart := List.disjoint_of_nodup_append distinct.of_append_left
          exact apart member (List.mem_singleton_self _)
        rw [List.foldl_cons, insert_of_absent absent, ih _ (by simpa [keys] using distinct)]
        simp
  simpa [ofEntries] using run entries [] (by simpa [keys] using nodup)

theorem get?_eq_some_iff {entries : List (κ × α)} (nodup : (keys entries).Nodup)
    {k : κ} {v : α} : get? entries k = some v ↔ (k, v) ∈ entries := by
  induction entries with
  | nil => simp [get?]
  | cons entry entries ih =>
      obtain ⟨absent, restNodup⟩ := List.nodup_cons.mp nodup
      by_cases here : entry.1 = k
      · have notLater : (k, v) ∉ entries := by
          intro member
          exact absent (here ▸ List.mem_map_of_mem (f := Prod.fst) member)
        simp [get?, here, Prod.ext_iff, eq_comm]
        intro member
        exact absurd member notLater
      · have later : get? (entry :: entries) k = get? entries k := by
          simp [get?, here]
        rw [later, ih restNodup, List.mem_cons]
        constructor
        · exact .inr
        · intro member
          rcases member with same | later
          · exact absurd (congrArg Prod.fst same).symm here
          · exact later

theorem mem_insert {k : κ} {v : α} {dict : List (κ × α)} {entry : κ × α}
    (member : entry ∈ insert k v dict) : entry = (k, v) ∨ entry ∈ dict := by
  induction dict with
  | nil => exact Or.inl (List.mem_singleton.mp member)
  | cons first rest ih =>
      unfold insert at member
      split at member
      · rcases List.mem_cons.mp member with same | later
        · exact Or.inl same
        · exact Or.inr (List.mem_cons_of_mem _ later)
      · rcases List.mem_cons.mp member with same | later
        · rw [same]
          exact Or.inr List.mem_cons_self
        · rcases ih later with new | old
          · exact Or.inl new
          · exact Or.inr (List.mem_cons_of_mem _ old)

/-- A dictionary holds stored entries only. -/
theorem mem_of_mem_ofEntries {entries : List (κ × α)} {entry : κ × α}
    (member : entry ∈ ofEntries entries) : entry ∈ entries := by
  have run : ∀ rest dict : List (κ × α),
      entry ∈ rest.foldl (fun dict entry => insert entry.1 entry.2 dict) dict →
        entry ∈ dict ∨ entry ∈ rest := by
    intro rest
    induction rest with
    | nil =>
        intro dict inDict
        exact Or.inl inDict
    | cons first rest ih =>
        intro dict inFold
        rcases ih _ inFold with inserted | later
        · rcases mem_insert inserted with new | old
          · rw [new]
            exact Or.inr List.mem_cons_self
          · exact Or.inl old
        · exact Or.inr (List.mem_cons_of_mem _ later)
  rcases run entries [] member with none | some
  · exact absurd none List.not_mem_nil
  · exact some

/-- A key under which one value was stored is looked up as that value. -/
theorem get?_ofEntries_iff {entries : List (κ × α)} {k : κ}
    (functional : ∀ v v', (k, v) ∈ entries → (k, v') ∈ entries → v = v') {v : α} :
    get? (ofEntries entries) k = some v ↔ (k, v) ∈ entries := by
  rw [get?_eq_some_iff (keys_nodup entries)]
  constructor
  · exact mem_of_mem_ofEntries
  · intro stored
    have key : k ∈ keys (ofEntries entries) :=
      mem_keys.mpr (List.mem_map_of_mem (f := Prod.fst) stored)
    obtain ⟨⟨k', v'⟩, member, same⟩ := List.mem_map.mp key
    dsimp only at same
    subst same
    rw [functional v v' stored (mem_of_mem_ofEntries member)]
    exact member

/-- Looking up does not depend on the insertion order of distinct keys. -/
theorem get?_perm {entries arranged : List (κ × α)} (nodup : (keys entries).Nodup)
    (perm : arranged.Perm entries) (k : κ) : get? arranged k = get? entries k := by
  have arrangedNodup : (keys arranged).Nodup := (perm.map Prod.fst).nodup_iff.mpr nodup
  apply Option.ext
  intro v
  rw [get?_eq_some_iff arrangedNodup, get?_eq_some_iff nodup, perm.mem_iff]

end Dict
