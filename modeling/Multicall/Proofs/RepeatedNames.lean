import Multicall.Assoc
import Mathlib.Data.List.Basic
/-!
Tables collected from pairs, one after the other. A name that comes again keeps its first place and
takes its last value; so a collected table has each name once, in order of first occurrence.
-/
namespace Multicall

theorem eraseDups_filter {β : Type} [BEq β] [LawfulBEq β] (keep : β → Bool) (items : List β) :
    (items.filter keep).eraseDups = items.eraseDups.filter keep := by
  induction items generalizing keep with
  | nil => rfl
  | cons item rest ih =>
      rw [List.eraseDups_cons, ih (fun other => !other == item)]
      by_cases kept : keep item = true
      · rw [List.filter_cons_of_pos kept, List.filter_cons_of_pos kept, List.eraseDups_cons,
          List.filter_filter, ih, List.filter_filter]
        simp only [Bool.and_comm]
      · rw [List.filter_cons_of_neg kept, List.filter_cons_of_neg kept, ih, List.filter_filter]
        refine List.filter_congr fun other _ => ?_
        by_cases same : other = item
        · simp [same, kept]
        · simp [same]

theorem nodup_eraseDups {β : Type} [BEq β] [LawfulBEq β] (items : List β) :
    items.eraseDups.Nodup := by
  induction items with
  | nil => exact List.nodup_nil
  | cons item rest ih =>
      rw [List.eraseDups_cons, eraseDups_filter, List.nodup_cons]
      exact ⟨by simp, ih.filter _⟩

namespace Assoc

variable {α : Type}

/-- Sets pairs one after the other. -/
def setAll (table pairs : Assoc α) : Assoc α :=
  pairs.foldl (fun table pair => set pair.1 pair.2 table) table

@[simp] theorem setAll_cons (table rest : Assoc α) (name : String) (value : α) :
    setAll table ((name, value) :: rest) = setAll (set name value table) rest := rfl

def collect (pairs : Assoc α) : Assoc α := setAll [] pairs

/-- The value that a name has in the last pair of that name. -/
def HasLast (pairs : Assoc α) (name : String) (value : α) : Prop :=
  ∃ front back, pairs = front ++ (name, value) :: back ∧ name ∉ keys back

theorem keys_setAll (table pairs : Assoc α) :
    keys (setAll table pairs) =
      keys table ++ ((keys pairs).eraseDups.filter fun name => decide (name ∉ keys table)) := by
  induction pairs generalizing table with
  | nil => simp [setAll, keys]
  | cons pair rest ih =>
      obtain ⟨name, value⟩ := pair
      rw [setAll_cons, ih, keys_set, show keys ((name, value) :: rest) = name :: keys rest from rfl,
        List.eraseDups_cons, eraseDups_filter]
      by_cases there : name ∈ keys table
      · rw [if_pos there, List.filter_cons_of_neg (by simpa using there), List.filter_filter]
        congr 1
        refine List.filter_congr fun other _ => ?_
        by_cases same : other = name
        · simp [same, there]
        · simp [same]
      · rw [if_neg there, List.filter_cons_of_pos (by simpa using there), List.filter_filter,
          List.append_assoc, List.singleton_append]
        congr 2
        refine List.filter_congr fun other _ => ?_
        by_cases same : other = name <;> simp [same]

theorem keys_collect (pairs : Assoc α) : keys (collect pairs) = (keys pairs).eraseDups := by
  rw [collect, keys_setAll]
  simp [keys]

theorem nodup_keys_collect (pairs : Assoc α) : (keys (collect pairs)).Nodup :=
  keys_collect pairs ▸ nodup_eraseDups _

theorem get?_eq_none_iff (name : String) (table : Assoc α) :
    get? name table = none ↔ name ∉ keys table := by
  induction table with
  | nil => simp [get?, keys]
  | cons entry rest ih => by_cases same : entry.1 = name <;> simp_all [get?, keys, eq_comm]

theorem mem_iff_get? {table : Assoc α} (apart : (keys table).Nodup) (name : String) (value : α) :
    (name, value) ∈ table ↔ get? name table = some value :=
  ⟨get?_of_mem apart, mem_of_get?⟩

/-- Pairs of other names leave a name alone. -/
theorem get?_setAll_of_not_mem {name : String} {pairs : Assoc α} (absent : name ∉ keys pairs)
    (table : Assoc α) : get? name (setAll table pairs) = get? name table := by
  induction pairs generalizing table with
  | nil => rfl
  | cons pair rest ih =>
      obtain ⟨other, value⟩ := pair
      rw [keys, List.map_cons, List.mem_cons, not_or] at absent
      rw [setAll_cons, ih absent.2, get?_set, if_neg (Ne.symm absent.1)]

theorem get?_collect_of_hasLast {pairs : Assoc α} {name : String} {value : α}
    (last : HasLast pairs name value) : get? name (collect pairs) = some value := by
  obtain ⟨front, back, rfl, absent⟩ := last
  rw [collect, setAll, List.foldl_append]
  exact (get?_setAll_of_not_mem absent _).trans (by rw [get?_set, if_pos rfl])

theorem exists_hasLast {pairs : Assoc α} {name : String} (there : name ∈ keys pairs) :
    ∃ value, HasLast pairs name value := by
  induction pairs with
  | nil => cases there
  | cons pair rest ih =>
      by_cases again : name ∈ keys rest
      · obtain ⟨value, front, back, rfl, absent⟩ := ih again
        exact ⟨value, pair :: front, back, rfl, absent⟩
      · rcases List.mem_cons.mp there with rfl | behind
        · exact ⟨pair.2, [], rest, rfl, again⟩
        · exact absurd behind again

theorem get?_collect_eq_some_iff (pairs : Assoc α) (name : String) (value : α) :
    get? name (collect pairs) = some value ↔ HasLast pairs name value := by
  refine ⟨fun found => ?_, get?_collect_of_hasLast⟩
  have there : name ∈ keys pairs := by
    by_contra absent
    rw [collect, get?_setAll_of_not_mem absent] at found
    cases found
  obtain ⟨own, last⟩ := exists_hasLast there
  rw [get?_collect_of_hasLast last] at found
  cases found
  exact last

theorem HasLast.mem {pairs : Assoc α} {name : String} {value : α}
    (last : HasLast pairs name value) : (name, value) ∈ pairs := by
  obtain ⟨front, back, rfl, -⟩ := last
  exact List.mem_append_right _ List.mem_cons_self

theorem HasLast.unique {pairs : Assoc α} {name : String} {value other : α}
    (last : HasLast pairs name value) (again : HasLast pairs name other) : value = other :=
  Option.some.inj ((get?_collect_of_hasLast last).symm.trans (get?_collect_of_hasLast again))

theorem HasLast.map {β : Type} {pairs : Assoc α} {name : String} {value : α} (f : α → β)
    (last : HasLast pairs name value) :
    HasLast (pairs.map fun pair => (pair.1, f pair.2)) name (f value) := by
  obtain ⟨front, back, rfl, absent⟩ := last
  refine ⟨_, _, List.map_append, ?_⟩
  simpa [keys] using absent

theorem HasLast.of_map {β : Type} {pairs : Assoc α} {name : String} {value : β} {f : α → β}
    (last : HasLast (pairs.map fun pair => (pair.1, f pair.2)) name value) :
    ∃ own, HasLast pairs name own ∧ f own = value := by
  have there : name ∈ keys pairs := by
    obtain ⟨pair, member, same⟩ := List.mem_map.mp last.mem
    cases same
    exact List.mem_map_of_mem member
  obtain ⟨own, found⟩ := exists_hasLast there
  exact ⟨own, found, (found.map f).unique last⟩

/-- Tables of the same names in the same order, each name once, are told apart by their values. -/
theorem ext_get? {table other : Assoc α} (apart : (keys table).Nodup)
    (names : keys table = keys other)
    (values : ∀ name ∈ keys table, get? name table = get? name other) : table = other := by
  induction table generalizing other with
  | nil => exact (List.map_eq_nil_iff.mp names.symm).symm
  | cons pair rest ih =>
      cases other with
      | nil => cases names
      | cons twin more =>
          obtain ⟨name, value⟩ := pair
          obtain ⟨other, own⟩ := twin
          simp only [keys, List.map_cons, List.cons.injEq, List.nodup_cons] at names apart
          obtain ⟨rfl, names⟩ := names
          have first := values name List.mem_cons_self
          simp only [get?, ↓reduceIte, Option.some.injEq] at first
          subst first
          rw [ih apart.2 names fun next among => ?_]
          have differs : name ≠ next := fun same => apart.1 (same ▸ among)
          simpa only [get?, if_neg differs] using values next (List.mem_cons_of_mem _ among)

theorem eq_collect_iff (table pairs : Assoc α) :
    table = collect pairs ↔ keys table = (keys pairs).eraseDups ∧
      ∀ name value, HasLast pairs name value → get? name table = some value := by
  constructor
  · rintro rfl
    exact ⟨keys_collect pairs, fun _ _ => get?_collect_of_hasLast⟩
  · rintro ⟨names, values⟩
    refine ext_get? (names ▸ nodup_eraseDups _) (names.trans (keys_collect pairs).symm) ?_
    intro name among
    rw [names, List.mem_eraseDups] at among
    obtain ⟨value, last⟩ := exists_hasLast among
    rw [values name value last, get?_collect_of_hasLast last]

end Assoc
end Multicall
