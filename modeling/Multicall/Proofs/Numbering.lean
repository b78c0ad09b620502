import Multicall.Proofs.FilterOutline
/-!
The numbers of comparisons. A comparison gets the number of its group, in the order in which groups
are reached, and its own number among the comparisons directly in that group. Nested groups take the
numbers between, so a group goes on with its own numbers behind them, and no number is handed out
twice. As placeholders are spelled differently when their numbers differ, binding one parameter
never replaces another.
-/
namespace Multicall.Filter

variable {α β : Type}

namespace Outline

/-- The conditions that stand directly among members. -/
def direct : List (Outline α) → List (String × α)
  | [] => []
  | .condition field content :: rest => (field, content) :: direct rest
  | .group _ _ :: rest => direct rest

theorem direct_append (first second : List (Outline α)) :
    direct (first ++ second) = direct first ++ direct second := by
  induction first with
  | nil => rfl
  | cons member rest ih =>
      cases member with
      | condition field content => rw [List.cons_append, direct, direct, ih, List.cons_append]
      | group join members => rw [List.cons_append, direct, direct, ih]

theorem direct_mapAll (f : α → β) (members : List (Outline α)) :
    direct (mapAll f members) = (direct members).map fun leaf => (leaf.1, f leaf.2) := by
  induction members with
  | nil => rfl
  | cons member rest ih =>
      cases member with
      | condition field content => rw [mapAll, map, direct, direct, ih, List.map_cons]
      | group join members => rw [mapAll, map, direct, direct, ih]

end Outline

def Condition.bound? : Condition → Option (Comparison × Parameter)
  | .test _ => none
  | .compare comparison parameter => some (comparison, parameter)

def boundIn (leaves : List (String × Condition)) : List (String × Comparison × Parameter) :=
  leaves.filterMap fun leaf => leaf.2.bound?.map (leaf.1, ·)

theorem boundIn_append (first second : List (String × Condition)) :
    boundIn (first ++ second) = boundIn first ++ boundIn second :=
  List.filterMap_append

mutual
/-- The placeholders of a clause from left to right, each with the comparison that owns it. -/
def Clause.owners : Clause → List (Placeholder × String × Comparison × Parameter)
  | .test _ _ => []
  | .compare field comparison placeholder parameter =>
      [(placeholder, field, comparison, parameter)]
  | .group _ clauses => Clause.ownersAll clauses

def Clause.ownersAll : List Clause → List (Placeholder × String × Comparison × Parameter)
  | [] => []
  | clause :: rest => Clause.owners clause ++ ownersAll rest
end

theorem Clause.ownersAll_append (first second : List Clause) :
    Clause.ownersAll (first ++ second) = Clause.ownersAll first ++ Clause.ownersAll second := by
  induction first with
  | nil => rfl
  | cons clause rest ih => rw [List.cons_append, Clause.ownersAll, Clause.ownersAll, ih,
      List.append_assoc]

mutual
theorem Clause.bindings_eq (clause : Clause) :
    clause.bindings = clause.owners.map fun owner => (owner.1, owner.2.2.2) := by
  cases clause with
  | test field asked => rfl
  | compare field comparison placeholder parameter => rfl
  | group join clauses =>
      rw [Clause.bindings, Clause.owners]
      exact Clause.bindingsAll_eq clauses

theorem Clause.bindingsAll_eq (clauses : List Clause) :
    Clause.bindingsAll clauses =
      (Clause.ownersAll clauses).map fun owner => (owner.1, owner.2.2.2) := by
  cases clauses with
  | nil => rfl
  | cons clause rest =>
      rw [Clause.bindingsAll, Clause.ownersAll, List.map_append, Clause.bindings_eq clause,
        Clause.bindingsAll_eq rest]
end

/-- How clauses are numbered that come of the members of group `own`, behind `leaves` comparisons of
that group and with `next` the first number for the groups inside. -/
structure Numbered (own leaves next : Nat) (members : List (Outline Condition))
    (clauses : List Clause) : Prop where
  order : (Clause.ownersAll clauses).map Prod.snd = boundIn (Outline.leavesAll members)
  direct : ∀ n entry, (boundIn (Outline.direct members))[n]? = some entry →
    (⟨own, leaves + n + 1⟩, entry) ∈ Clause.ownersAll clauses
  nested : ∀ i group n entry, (Outline.groupsAll members)[i]? = some group →
    (boundIn (Outline.direct group))[n]? = some entry →
      (⟨next + i, n + 1⟩, entry) ∈ Clause.ownersAll clauses
  within : ∀ owner ∈ Clause.ownersAll clauses,
    (owner.1.group = own ∧ leaves < owner.1.leaf ∧
      owner.1.leaf ≤ leaves + (boundIn (Outline.direct members)).length) ∨
    (next ≤ owner.1.group ∧ owner.1.group < next + (Outline.groupsAll members).length)
  apart : ((Clause.ownersAll clauses).map Prod.fst).Nodup

namespace Numbered

variable {own leaves next : Nat}

theorem nil : Numbered own leaves next [] [] where
  order := rfl
  direct := fun _ _ found => nomatch found
  nested := fun _ _ _ _ found => nomatch found
  within := fun _ found => nomatch found
  apart := List.nodup_nil

theorem test (field : String) (asked : FieldTest) :
    Numbered own leaves next [.condition field (.test asked)] [.test field asked] where
  order := rfl
  direct := fun _ _ found => nomatch found
  nested := fun _ _ _ _ found => nomatch found
  within := fun _ found => nomatch found
  apart := List.nodup_nil

theorem compare (field : String) (comparison : Comparison) (parameter : Parameter) :
    Numbered own leaves next [.condition field (.compare comparison parameter)]
      [.compare field comparison ⟨own, leaves + 1⟩ parameter] where
  order := rfl
  direct := by
    intro n entry found
    cases n with
    | zero =>
        cases found
        exact List.mem_cons_self
    | succ n => cases found
  nested := fun _ _ _ _ found => nomatch found
  within := by
    intro owner found
    cases List.mem_singleton.mp found
    exact .inl ⟨rfl, Nat.lt_succ_self leaves, Nat.le_refl _⟩
  apart := List.nodup_cons.mpr ⟨List.not_mem_nil, List.nodup_nil⟩

/-- Behind some members, both kinds of numbers go on where they left them. -/
theorem append {first second : List (Outline Condition)} {clauses others : List Clause}
    (below : own < next) (begun : Numbered own leaves next first clauses)
    (continued : Numbered own (leaves + (boundIn (Outline.direct first)).length)
      (next + (Outline.groupsAll first).length) second others) :
    Numbered own leaves next (first ++ second) (clauses ++ others) where
  order := by
    rw [Clause.ownersAll_append, List.map_append, begun.order, continued.order,
      Outline.leavesAll_append, boundIn_append]
  direct := by
    intro n entry found
    rw [Outline.direct_append, boundIn_append] at found
    rw [Clause.ownersAll_append, List.mem_append]
    rcases Nat.lt_or_ge n (boundIn (Outline.direct first)).length with early | late
    · rw [List.getElem?_append_left early] at found
      exact .inl (begun.direct n entry found)
    · -- the place counts from where the first members stop
      rw [List.getElem?_append_right late] at found
      have placed := continued.direct _ entry found
      rw [Nat.add_assoc leaves, Nat.add_sub_cancel' late] at placed
      exact .inr placed
  nested := by
    intro i group n entry reached found
    rw [Outline.groupsAll_append] at reached
    rw [Clause.ownersAll_append, List.mem_append]
    rcases Nat.lt_or_ge i (Outline.groupsAll first).length with early | late
    · rw [List.getElem?_append_left early] at reached
      exact .inl (begun.nested i group n entry reached found)
    · rw [List.getElem?_append_right late] at reached
      have placed := continued.nested _ group n entry reached found
      rw [Nat.add_assoc next, Nat.add_sub_cancel' late] at placed
      exact .inr placed
  within := by
    intro owner found
    rw [Clause.ownersAll_append, List.mem_append] at found
    rw [Outline.direct_append, boundIn_append, List.length_append, Outline.groupsAll_append,
      List.length_append]
    rcases found with found | found
    · have early := begun.within owner found
      omega
    · have late := continued.within owner found
      omega
  apart := by
    rw [Clause.ownersAll_append, List.map_append, List.nodup_append]
    refine ⟨begun.apart, continued.apart, ?_⟩
    intro p early q late same
    obtain ⟨owner, found, rfl⟩ := List.mem_map.mp early
    obtain ⟨other, behind, rfl⟩ := List.mem_map.mp late
    -- a number of the first members is below every number of the others, of either kind
    have first := begun.within owner found
    have second := continued.within other behind
    rw [← same] at second
    omega

/-- A nested group takes the next number for itself and starts its comparisons anew. -/
theorem group (join : Join) {members : List (Outline Condition)} {clauses outer : List Clause}
    (inner : Numbered next 0 (next + 1) members clauses)
    (same : Clause.ownersAll outer = Clause.ownersAll clauses) :
    Numbered own leaves next [.group join members] outer where
  order := by
    rw [same, inner.order, Outline.leavesAll, Outline.leaves, Outline.leavesAll, List.append_nil]
  direct := fun _ _ found => nomatch found
  nested := by
    intro i group n entry reached found
    rw [Outline.groupsAll, Outline.groups, Outline.groupsAll, List.append_nil] at reached
    rw [same]
    -- the group itself is reached before the groups inside it
    cases i with
    | zero =>
        cases reached
        have placed := inner.direct n entry found
        rw [Nat.zero_add] at placed
        exact placed
    | succ i =>
        have placed := inner.nested i group n entry reached found
        rw [Nat.add_right_comm, Nat.add_assoc] at placed
        exact placed
  within := by
    intro owner found
    rw [same] at found
    have placed := inner.within owner found
    rw [Outline.groupsAll, Outline.groups, Outline.groupsAll, List.append_nil, List.length_cons]
    omega
  apart := by
    rw [same]
    exact inner.apart

end Numbered

mutual
theorem Node.number_numbered (own leaves next : Nat) (node : Node) :
    Numbered own leaves next [node.outline] (Node.number own leaves next node).1.toList ∧
      (Node.number own leaves next node).2.1 =
        leaves + (boundIn (Outline.direct [node.outline])).length ∧
      (Node.number own leaves next node).2.2 = next + node.outline.groups.length := by
  cases node with
  | condition field c =>
      cases c with
      | test asked => exact ⟨.test field asked, rfl, rfl⟩
      | compare comparison parameter => exact ⟨.compare field comparison parameter, rfl, rfl⟩
  | group join members =>
      obtain ⟨inner, after⟩ :=
        Node.numberAll_numbered next 0 (next + 1) members (Nat.lt_succ_self next)
      refine ⟨inner.group join ?_, rfl, ?_⟩
      · simp only [Node.number]
        cases (Node.numberAll next 0 (next + 1) members).1 with
        | nil => rfl
        | cons clause rest => exact List.append_nil _
      · rw [Node.number, Node.outline, Outline.groups, List.length_cons, after]
        omega

theorem Node.numberAll_numbered (own leaves next : Nat) (nodes : List Node) (below : own < next) :
    Numbered own leaves next (Node.outlineAll nodes) (Node.numberAll own leaves next nodes).1 ∧
      (Node.numberAll own leaves next nodes).2 =
        next + (Outline.groupsAll (Node.outlineAll nodes)).length := by
  cases nodes with
  | nil => exact ⟨.nil, rfl⟩
  | cons node rest =>
      obtain ⟨first, counted, after⟩ := Node.number_numbered own leaves next node
      obtain ⟨others, ended⟩ := Node.numberAll_numbered own (Node.number own leaves next node).2.1
        (Node.number own leaves next node).2.2 rest (by omega)
      rw [Node.numberAll_cons, Node.outlineAll, Outline.groupsAll, List.length_append]
      refine ⟨first.append below ?_, ?_⟩
      · rw [← counted, Outline.groupsAll, Outline.groupsAll, List.append_nil, ← after]
        exact others
      · rw [ended, after, Nat.add_assoc]
end

theorem clauses_numbered (nodes : List Node) :
    Numbered 0 0 1 (Node.outlineAll nodes) (clauses nodes) :=
  (Node.numberAll_numbered 0 0 1 nodes Nat.one_pos).1

/-- The comparisons directly in a group of the whole filter have its number and their place. -/
theorem Numbered.owner_of_visited {members : List (Outline Condition)} {clauses : List Clause}
    (numbered : Numbered 0 0 1 members clauses) {k n : Nat} {group : List (Outline Condition)}
    {entry : String × Comparison × Parameter}
    (reached : (Outline.visited members)[k]? = some group)
    (found : (boundIn (Outline.direct group))[n]? = some entry) :
    (⟨k, n + 1⟩, entry) ∈ Clause.ownersAll clauses := by
  cases k with
  | zero =>
      cases reached
      have placed := numbered.direct n entry found
      rw [Nat.zero_add] at placed
      exact placed
  | succ i =>
      have placed := numbered.nested i group n entry reached found
      rw [Nat.add_comm] at placed
      exact placed

theorem digits_injective {m n : Nat} (same : Ascii.digits m = Ascii.digits n) : m = n := by
  rw [← Ascii.digitsValue_digits m, same, Ascii.digitsValue_digits]

theorem append_mark_injective {mark : Char} {first second rest more : List Char}
    (free : mark ∉ first) (clear : mark ∉ second)
    (same : first ++ mark :: rest = second ++ mark :: more) : first = second ∧ rest = more := by
  have before {cs : List Char} (absent : mark ∉ cs) (behind : List Char) :
      (cs ++ mark :: behind).takeWhile (· != mark) = cs := by
    have inside : ∀ c ∈ cs, (c != mark) = true := by
      intro c found
      exact bne_iff_ne.mpr fun same => absent (same ▸ found)
    rw [List.takeWhile_append_of_pos inside, List.takeWhile_cons, if_neg (by simp),
      List.append_nil]
  have equal : first = second := by
    rw [← before free rest, same, before clear more]
  subst equal
  exact ⟨rfl, (List.cons.inj (List.append_cancel_left same)).2⟩

theorem Placeholder.text_injective {p q : Placeholder} (same : p.text = q.text) : p = q := by
  have letters := congrArg String.toList same
  rw [p.text_toList, q.text_toList] at letters
  obtain ⟨groups, leaves⟩ := append_mark_injective Nat.underscore_not_in_toDigits
    Nat.underscore_not_in_toDigits (List.cons.inj (List.cons.inj letters).2).2
  cases p
  cases q
  rw [Placeholder.mk.injEq]
  exact ⟨digits_injective groups, digits_injective leaves⟩

theorem Numbered.texts_apart {own leaves next : Nat} {members : List (Outline Condition)}
    {clauses : List Clause} (numbered : Numbered own leaves next members clauses) :
    ((Clause.ownersAll clauses).map fun owner => owner.1.text).Nodup := by
  have apart := numbered.apart
  rw [List.Nodup, List.pairwise_map] at apart ⊢
  exact apart.imp fun differs same => differs (Placeholder.text_injective same)

theorem foldl_set_eq (bindings : List (Placeholder × Parameter)) (table : Assoc Parameter)
    (apart : (bindings.map Prod.fst).Nodup)
    (new : ∀ b ∈ bindings, b.1.text ∉ table.keys) :
    bindings.foldl (fun table b => table.set b.1.text b.2) table =
      table ++ bindings.map fun b => (b.1.text, b.2) := by
  induction bindings generalizing table with
  | nil => exact (List.append_nil table).symm
  | cons b rest ih =>
      rw [List.map_cons, List.nodup_cons] at apart
      have added := Assoc.set_of_not_mem b.2 (new b List.mem_cons_self)
      have others : ∀ c ∈ rest, c.1.text ∉ (table.set b.1.text b.2).keys := by
        intro c found
        rw [added, Assoc.keys, List.map_append, List.mem_append]
        rintro (old | same)
        · exact new c (List.mem_cons_of_mem b found) old
        · have equal := Placeholder.text_injective (List.mem_singleton.mp same)
          exact apart.1 (equal ▸ List.mem_map_of_mem found)
      rw [List.foldl_cons, ih _ apart.2 others, added, List.map_cons, List.append_assoc]
      rfl

theorem bindAll_eq (bindings : List (Placeholder × Parameter))
    (apart : (bindings.map Prod.fst).Nodup) :
    bindAll bindings = bindings.map fun b => (b.1.text, b.2) :=
  foldl_set_eq bindings [] apart fun _ _ found => nomatch found

/-- The parameters of numbered clauses: one for each comparison, from left to right. -/
theorem Numbered.parameters_eq {own leaves next : Nat} {members : List (Outline Condition)}
    {clauses : List Clause} (numbered : Numbered own leaves next members clauses) :
    bindAll (Clause.bindingsAll clauses) =
      (Clause.ownersAll clauses).map fun owner => (owner.1.text, owner.2.2.2) := by
  have apart : ((Clause.bindingsAll clauses).map Prod.fst).Nodup := by
    rw [Clause.bindingsAll_eq, List.map_map]
    exact numbered.apart
  rw [bindAll_eq _ apart, Clause.bindingsAll_eq, List.map_map]
  rfl

end Multicall.Filter
