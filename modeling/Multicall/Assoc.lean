/-!
Ordered tables with text keys. Setting a key that is there replaces its value in place; a new key
goes behind all others. Looking a key up after setting one sees exactly that change.
-/
namespace Multicall

abbrev Assoc (α : Type) := List (String × α)

namespace Assoc

variable {α : Type}

def get? (key : String) : Assoc α → Option α
  | [] => none
  | (k, value) :: rest => if k = key then some value else get? key rest

def set (key : String) (value : α) : Assoc α → Assoc α
  | [] => [(key, value)]
  | (k, old) :: rest => if k = key then (k, value) :: rest else (k, old) :: set key value rest

def erase (key : String) (table : Assoc α) : Assoc α := table.filter fun entry => entry.1 != key

def keys (table : Assoc α) : List String := table.map (·.1)

/-- Puts an entry in front of the first one whose key does not rank below its own. -/
def place (rank : String → Nat) (entry : String × α) : Assoc α → Assoc α
  | [] => [entry]
  | other :: rest =>
      if rank entry.1 ≤ rank other.1 then entry :: other :: rest
      else other :: place rank entry rest

/-- The entries by the ranks of their keys; those of one rank stay as they are. -/
def arrange (rank : String → Nat) (table : Assoc α) : Assoc α := table.foldr (place rank) []

theorem place_perm (rank : String → Nat) (entry : String × α) (table : Assoc α) :
    (place rank entry table).Perm (entry :: table) := by
  induction table with
  | nil => exact .refl _
  | cons other rest ih =>
      rw [place]
      split
      · exact .refl _
      · exact (ih.cons other).trans (.swap entry other rest)

theorem arrange_perm (rank : String → Nat) (table : Assoc α) :
    (table.arrange rank).Perm table := by
  induction table with
  | nil => exact .refl _
  | cons entry rest ih => exact (place_perm rank entry _).trans (ih.cons entry)

theorem get?_set (key other : String) (value : α) (table : Assoc α) :
    get? other (set key value table) = if key = other then some value else get? other table := by
  induction table with
  | nil => simp [set, get?]
  | cons entry rest ih =>
      obtain ⟨k, old⟩ := entry
      by_cases same : k = key
      · subst same
        by_cases h : k = other <;> simp [set, get?, h]
      · by_cases h : k = other
        · subst h
          simp [set, get?, same, Ne.symm same]
        · simp [set, get?, same, h, ih]

theorem keys_set (key : String) (value : α) (table : Assoc α) :
    keys (set key value table) =
      if key ∈ keys table then keys table else keys table ++ [key] := by
  induction table with
  | nil => simp [set, keys]
  | cons entry rest ih =>
      obtain ⟨k, old⟩ := entry
      by_cases same : k = key
      · simp [set, keys, same]
      · have differs : key ≠ k := Ne.symm same
        simp only [keys] at ih
        by_cases h : key ∈ List.map (·.1) rest <;> simp_all [set, keys]

theorem set_of_not_mem {key : String} {table : Assoc α} (value : α) (h : key ∉ keys table) :
    set key value table = table ++ [(key, value)] := by
  induction table with
  | nil => rfl
  | cons entry rest ih =>
      obtain ⟨k, old⟩ := entry
      simp only [keys, List.map_cons, List.mem_cons, not_or] at h
      simp [set, Ne.symm h.1, ih h.2]

theorem set_of_get?_none {key : String} {table : Assoc α} (value : α)
    (absent : get? key table = none) : set key value table = table ++ [(key, value)] := by
  apply set_of_not_mem
  induction table with
  | nil => exact List.not_mem_nil
  | cons entry rest ih =>
      obtain ⟨k, old⟩ := entry
      rw [get?] at absent
      split at absent
      · cases absent
      · next differs => exact List.not_mem_cons_of_ne_of_not_mem (Ne.symm differs) (ih absent)

theorem get?_of_mem {key : String} {value : α} {table : Assoc α} (apart : (keys table).Nodup)
    (found : (key, value) ∈ table) : get? key table = some value := by
  induction table with
  | nil => cases found
  | cons entry rest ih =>
      obtain ⟨k, old⟩ := entry
      rw [keys, List.map_cons, List.nodup_cons] at apart
      rw [get?]
      cases List.mem_cons.mp found with
      | inl same =>
          cases same
          exact if_pos rfl
      | inr behind =>
          have differs : k ≠ key := by
            rintro rfl
            exact apart.1 (List.mem_map.mpr ⟨_, behind, rfl⟩)
          rw [if_neg differs]
          exact ih apart.2 behind

theorem get?_map {β : Type} (f : α → β) (key : String) (table : Assoc α) :
    get? key (table.map fun entry => (entry.1, f entry.2)) = (get? key table).map f := by
  induction table with
  | nil => rfl
  | cons entry rest ih =>
      by_cases same : entry.1 = key <;> simp [get?, same, ih]

theorem set_map {β : Type} (f : α → β) (key : String) (value : α) (table : Assoc α) :
    set key (f value) (table.map fun entry => (entry.1, f entry.2)) =
      (set key value table).map fun entry => (entry.1, f entry.2) := by
  induction table with
  | nil => rfl
  | cons entry rest ih => by_cases same : entry.1 = key <;> simp [set, same, ih]

theorem mem_of_get? {key : String} {value : α} {table : Assoc α}
    (found : get? key table = some value) : (key, value) ∈ table := by
  induction table with
  | nil => cases found
  | cons entry rest ih =>
      obtain ⟨k, old⟩ := entry
      rw [get?] at found
      split at found
      · next same =>
          cases found
          exact same ▸ List.mem_cons_self
      · exact List.mem_cons_of_mem _ (ih found)

end Assoc
end Multicall
