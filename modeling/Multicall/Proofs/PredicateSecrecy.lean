import Multicall.Proofs.Numbering
/-!
What predicate texts tell. A text and its placeholders come from the groups, the fields and the
operators of a document and from nothing else in it: two documents with one outline have one text,
whatever values and types their conditions hold, however their names are tagged and whatever stands
under names that are not allowed. A prefix only goes in front of fields, so it neither makes a
document fail nor changes a parameter.
-/
namespace Multicall.Filter

structure Alike (fieldPrefix : String) (clauses others : List Clause) : Prop where
  texts : Clause.sqlAll fieldPrefix clauses = Clause.sqlAll fieldPrefix others
  placeholders : (Clause.bindingsAll clauses).map Prod.fst =
    (Clause.bindingsAll others).map Prod.fst

theorem Clause.sqlAll_eq (fieldPrefix : String) (clauses : List Clause) :
    Clause.sqlAll fieldPrefix clauses = clauses.map (Clause.sql fieldPrefix) := by
  induction clauses with
  | nil => rfl
  | cons clause rest ih => rw [Clause.sqlAll, ih, List.map_cons]

theorem Clause.bindingsAll_append (first second : List Clause) :
    Clause.bindingsAll (first ++ second) =
      Clause.bindingsAll first ++ Clause.bindingsAll second := by
  induction first with
  | nil => rfl
  | cons clause rest ih =>
      rw [List.cons_append, Clause.bindingsAll, Clause.bindingsAll, ih, List.append_assoc]

namespace Alike

variable {fieldPrefix : String} {clauses others : List Clause}

theorem refl (clauses : List Clause) : Alike fieldPrefix clauses clauses := ⟨rfl, rfl⟩

theorem append {more rest : List Clause} (first : Alike fieldPrefix clauses others)
    (second : Alike fieldPrefix more rest) :
    Alike fieldPrefix (clauses ++ more) (others ++ rest) where
  texts := by
    have texts := first.texts
    have behind := second.texts
    simp only [Clause.sqlAll_eq] at texts behind ⊢
    rw [List.map_append, List.map_append, texts, behind]
  placeholders := by
    rw [Clause.bindingsAll_append, Clause.bindingsAll_append, List.map_append, List.map_append,
      first.placeholders, second.placeholders]

theorem isEmpty (alike : Alike fieldPrefix clauses others) : clauses.isEmpty = others.isEmpty := by
  have texts := alike.texts
  rw [Clause.sqlAll_eq, Clause.sqlAll_eq] at texts
  cases clauses <;> cases others <;> simp_all

/-- Groups of like clauses are alike, or both leave nothing. -/
theorem group (join : Join) (alike : Alike fieldPrefix clauses others) :
    Alike fieldPrefix
      (if clauses.isEmpty then none else some (Clause.group join clauses)).toList
      (if others.isEmpty then none else some (Clause.group join others)).toList := by
  rw [alike.isEmpty]
  cases others.isEmpty with
  | true => exact .refl []
  | false =>
      refine ⟨?_, ?_⟩
      · simp only [Bool.false_eq_true, if_false, Option.toList_some, Clause.sqlAll, Clause.sql,
          alike.texts]
      · simp only [Bool.false_eq_true, if_false, Option.toList_some, Clause.bindingsAll,
          Clause.bindings, List.append_nil, alike.placeholders]

end Alike

mutual
theorem Node.number_alike (fieldPrefix : String) (own leaves next : Nat) (node other : Node)
    (same : node.outline.map (fun c => some c.operator) =
      other.outline.map fun c => some c.operator) :
    Alike fieldPrefix (Node.number own leaves next node).1.toList
        (Node.number own leaves next other).1.toList ∧
      (Node.number own leaves next node).2 = (Node.number own leaves next other).2 := by
  cases node with
  | condition field c =>
      cases other with
      | condition name d =>
          simp only [Node.outline, Outline.map, Outline.condition.injEq] at same
          obtain ⟨rfl, operators⟩ := same
          cases c <;> cases d <;> cases operators <;> exact ⟨⟨rfl, rfl⟩, rfl⟩
      | group join members => cases same
  | group join members =>
      cases other with
      | condition name d => cases same
      | group joined inside =>
          -- the members are alike, so either both groups are left or neither is
          simp only [Node.outline, Outline.map, Outline.group.injEq] at same
          obtain ⟨rfl, inner⟩ := same
          obtain ⟨alike, counted⟩ :=
            Node.numberAll_alike fieldPrefix next 0 (next + 1) members inside inner
          simp only [Node.number, counted, and_true]
          exact alike.group join

theorem Node.numberAll_alike (fieldPrefix : String) (own leaves next : Nat)
    (nodes others : List Node)
    (same : Outline.mapAll (fun c => some c.operator) (Node.outlineAll nodes) =
      Outline.mapAll (fun c => some c.operator) (Node.outlineAll others)) :
    Alike fieldPrefix (Node.numberAll own leaves next nodes).1
        (Node.numberAll own leaves next others).1 ∧
      (Node.numberAll own leaves next nodes).2 = (Node.numberAll own leaves next others).2 := by
  cases nodes with
  | nil =>
      cases others with
      | nil => exact ⟨.refl [], rfl⟩
      | cons other rest => cases same
  | cons node more =>
      cases others with
      | nil => cases same
      | cons other rest =>
          simp only [Node.outlineAll, Outline.mapAll, List.cons.injEq] at same
          obtain ⟨first, behind⟩ := same
          obtain ⟨alike, counted⟩ := Node.number_alike fieldPrefix own leaves next node other first
          -- both counts have come to the same, so the rest is numbered from the same place
          obtain ⟨follow, ended⟩ := Node.numberAll_alike fieldPrefix own
            (Node.number own leaves next node).2.1 (Node.number own leaves next node).2.2 more rest
            behind
          rw [Node.numberAll_cons, Node.numberAll_cons, ← counted]
          exact ⟨alike.append follow, ended⟩
end

theorem clauses_alike (fieldPrefix : String) {first second : Json} {nodes others : List Node}
    (same : outline operatorOf first = outline operatorOf second)
    (found : read first = .ok nodes) (read : read second = .ok others) :
    Alike fieldPrefix (clauses nodes) (clauses others) := by
  rw [outline_of_read shows_operator found, outline_of_read shows_operator read] at same
  exact (Node.numberAll_alike fieldPrefix 0 0 1 nodes others same).1

/-- The names of the parameters are the spelled placeholders, in order. -/
theorem keys_parameters (fieldPrefix : String) (join : Join) (nodes : List Node) :
    (Predicate.ofClauses fieldPrefix join (clauses nodes)).parameters.keys =
      ((Clause.bindingsAll (clauses nodes)).map Prod.fst).map Placeholder.text := by
  have parameters := (clauses_numbered nodes).parameters_eq
  rw [Predicate.ofClauses, parameters, Clause.bindingsAll_eq, Assoc.keys, List.map_map,
    List.map_map, List.map_map]
  rfl

namespace Predicate

theorem compile_of_read (fieldPrefix : String) (join : Join) {tree : Json} {nodes : List Node}
    (found : read tree = .ok nodes) :
    compile fieldPrefix join tree = .ok (ofClauses fieldPrefix join (clauses nodes)) := by
  rw [compile, found]
  rfl

theorem compile_of_error (fieldPrefix : String) (join : Join) {tree : Json} {offence : FilterError}
    (found : read tree = .error offence) : compile fieldPrefix join tree = .error offence := by
  rw [compile, found]
  rfl

/-- Documents with one outline have one text and the same placeholders in it, and under any two
prefixes a document fails alike or has the same parameters. -/
theorem compile_hides_values (fieldPrefix : String) (join : Join) :
    (∀ first second predicate other, outline operatorOf first = outline operatorOf second →
      compile fieldPrefix join first = .ok predicate → compile fieldPrefix join second = .ok other →
        predicate.text = other.text ∧ predicate.parameters.keys = other.parameters.keys) ∧
    ∀ otherPrefix tree,
      (∃ offence, compile fieldPrefix join tree = .error offence ∧
        compile otherPrefix join tree = .error offence) ∨
      ∃ predicate other, compile fieldPrefix join tree = .ok predicate ∧
        compile otherPrefix join tree = .ok other ∧ predicate.parameters = other.parameters := by
  constructor
  · intro first second predicate other same compiled recompiled
    obtain ⟨nodes, found, rfl⟩ := ok_of_map compiled
    obtain ⟨others, read, rfl⟩ := ok_of_map recompiled
    have alike := clauses_alike fieldPrefix same found read
    constructor
    · exact congrArg join.between alike.texts
    · rw [keys_parameters, keys_parameters, alike.placeholders]
  · intro otherPrefix tree
    cases found : read tree with
    | error offence => exact .inl ⟨offence, compile_of_error _ _ found, compile_of_error _ _ found⟩
    | ok nodes => exact .inr ⟨_, _, compile_of_read _ _ found, compile_of_read _ _ found, rfl⟩

/-- The document of `nestedTree` with other values, types, tags and names that are not allowed. -/
def disguisedTree : Json :=
  .object [("drop table", .bool true),
    ("name:x", .object [("type", .string "int"), ("value", .int 5), ("operator", .string "eq")]),
    ("#OR", .object [("AND:or", .object [("operator", .string "isempty"), ("value", .int 1)]),
      ("#and:1", .object [("a b", .null)]), ("b", .object [("operator", .string "like")])])]

def nestedOutline : List (Outline (Option Operator)) :=
  [.condition "name" (some (.compare .eq)),
    .group .or [.condition "AND" (some (.test .isEmpty)), .group .and [],
      .condition "b" (some (.compare .like))]]

theorem disguise_is_hidden :
    outline operatorOf nestedTree = outline operatorOf disguisedTree ∧
      ∃ other, compile "t." .and disguisedTree = .ok other ∧
        other.text = "t.name = :p0_1 AND (NULLIF(t.AND, '') IS NULL OR t.b LIKE :p1_1)" ∧
        other.parameters.keys = [":p0_1", ":p1_1"] := by
  have shown : outline operatorOf nestedTree = nestedOutline := by rfl
  have disguised : outline operatorOf disguisedTree = nestedOutline := by rfl
  have same := shown.trans disguised.symm
  have compiled : compile "t." .and disguisedTree = .ok ⟨nestedPredicate.text,
      [(":p0_1", .integer 5), (":p1_1", .string "")]⟩ := by rfl
  obtain ⟨text, keys⟩ := (compile_hides_values "t." .and).1 nestedTree disguisedTree
    nestedPredicate _ same compile_nestedTree compiled
  exact ⟨same, _, compiled, text.symm, keys.symm⟩

end Predicate

end Multicall.Filter
