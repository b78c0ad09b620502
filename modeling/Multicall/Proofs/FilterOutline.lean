import Multicall.Filter.Predicate
/-!
Outlines of filter documents: the groups and conditions that survive, told without reading what a
condition asks for. What is kept of a condition's body is up to a view, so that one outline serves
for its operator alone and another for all that its parameter is made of. Members with other names
leave no trace, and of a name only what stands before its tag counts. A document that is read has
the nodes that its outline says.
-/
namespace Multicall.Filter

variable {α β : Type}

/-- A member of a filter, with what is known of each condition. -/
inductive Outline (α : Type)
  | condition (field : String) (content : α)
  | group (join : Join) (members : List (Outline α))

mutual
/-- What a member of a filter document leaves, where a view says what is kept of a condition. -/
def outlineMember (view : Json → α) (key : String) : Json → List (Outline α)
  | .object members =>
      match Join.named? (untagged key) with
      | some join => [.group join (outlineMembers view members)]
      | none =>
          if isFieldName (untagged key) then [.condition (untagged key) (view (.object members))]
          else []
  | _ => []

def outlineMembers (view : Json → α) : List (String × Json) → List (Outline α)
  | [] => []
  | (key, value) :: rest => outlineMember view key value ++ outlineMembers view rest
end

def outline (view : Json → α) : Json → List (Outline α)
  | .object members => outlineMembers view members
  | _ => []

/-- The operator that the body of a condition names, if it names one. -/
def operatorOf : Json → Option Operator
  | .object members =>
      match Assoc.get? "operator" members with
      | some (.string token) => Operator.parse? token
      | _ => none
  | _ => none

def Condition.operator : Condition → Operator
  | .test asked => .test asked
  | .compare comparison _ => .compare comparison

namespace Outline

mutual
/-- The conditions of a member, in document order. -/
def leaves : Outline α → List (String × α)
  | .condition field content => [(field, content)]
  | .group _ members => leavesAll members

def leavesAll : List (Outline α) → List (String × α)
  | [] => []
  | member :: rest => leaves member ++ leavesAll rest
end

mutual
/-- The groups of a member in the order in which they are reached, each with its own members. -/
def groups : Outline α → List (List (Outline α))
  | .condition _ _ => []
  | .group _ members => members :: groupsAll members

def groupsAll : List (Outline α) → List (List (Outline α))
  | [] => []
  | member :: rest => groups member ++ groupsAll rest
end

/-- The groups of a whole filter. The root comes first, and groups without conditions count. -/
def visited (members : List (Outline α)) : List (List (Outline α)) := members :: groupsAll members

mutual
def map (f : α → β) : Outline α → Outline β
  | .condition field content => .condition field (f content)
  | .group join members => .group join (mapAll f members)

def mapAll (f : α → β) : List (Outline α) → List (Outline β)
  | [] => []
  | member :: rest => map f member :: mapAll f rest
end

theorem leavesAll_append (first second : List (Outline α)) :
    leavesAll (first ++ second) = leavesAll first ++ leavesAll second := by
  induction first with
  | nil => rfl
  | cons member rest ih => rw [List.cons_append, leavesAll, leavesAll, ih, List.append_assoc]

theorem groupsAll_append (first second : List (Outline α)) :
    groupsAll (first ++ second) = groupsAll first ++ groupsAll second := by
  induction first with
  | nil => rfl
  | cons member rest ih => rw [List.cons_append, groupsAll, groupsAll, ih, List.append_assoc]

theorem mapAll_eq (f : α → β) (members : List (Outline α)) :
    mapAll f members = members.map (map f) := by
  induction members with
  | nil => rfl
  | cons member rest ih => rw [mapAll, ih, List.map_cons]

mutual
theorem leaves_map (f : α → β) (member : Outline α) :
    (member.map f).leaves = member.leaves.map fun leaf => (leaf.1, f leaf.2) := by
  cases member with
  | condition field content => rfl
  | group join members =>
      rw [map, leaves, leaves]
      exact leavesAll_mapAll f members

theorem leavesAll_mapAll (f : α → β) (members : List (Outline α)) :
    leavesAll (mapAll f members) = (leavesAll members).map fun leaf => (leaf.1, f leaf.2) := by
  cases members with
  | nil => rfl
  | cons member rest =>
      rw [mapAll, leavesAll, leavesAll, List.map_append, leaves_map f member,
        leavesAll_mapAll f rest]
end

mutual
theorem groups_map (f : α → β) (member : Outline α) :
    (member.map f).groups = member.groups.map (mapAll f) := by
  cases member with
  | condition field content => rfl
  | group join members =>
      rw [map, groups, groups, List.map_cons, groupsAll_mapAll f members]

theorem groupsAll_mapAll (f : α → β) (members : List (Outline α)) :
    groupsAll (mapAll f members) = (groupsAll members).map (mapAll f) := by
  cases members with
  | nil => rfl
  | cons member rest =>
      rw [mapAll, groupsAll, groupsAll, List.map_append, groups_map f member,
        groupsAll_mapAll f rest]
end

theorem visited_mapAll (f : α → β) (members : List (Outline α)) :
    visited (mapAll f members) = (visited members).map (mapAll f) := by
  rw [visited, visited, List.map_cons, groupsAll_mapAll]

end Outline

/-! An outline with a coarser view is the outline with the finer one, seen coarsely. -/

mutual
theorem outlineMember_comp (f : α → β) (view : Json → α) (key : String) (value : Json) :
    outlineMember (fun body => f (view body)) key value =
      Outline.mapAll f (outlineMember view key value) := by
  cases value with
  | object members =>
      rw [outlineMember, outlineMember]
      cases Join.named? (untagged key) with
      | some join =>
          simp only [Outline.mapAll, Outline.map]
          rw [outlineMembers_comp f view members]
      | none =>
          simp only []
          split <;> rfl
  | null => rfl
  | bool value => rfl
  | number value => rfl
  | string value => rfl
  | array items => rfl

theorem outlineMembers_comp (f : α → β) (view : Json → α) (members : List (String × Json)) :
    outlineMembers (fun body => f (view body)) members =
      Outline.mapAll f (outlineMembers view members) := by
  cases members with
  | nil => rfl
  | cons member rest =>
      obtain ⟨key, value⟩ := member
      rw [outlineMembers, outlineMembers, outlineMember_comp f view key value,
        outlineMembers_comp f view rest, Outline.mapAll_eq, Outline.mapAll_eq, Outline.mapAll_eq,
        List.map_append]
end

theorem outline_comp (f : α → β) (view : Json → α) (tree : Json) :
    outline (fun body => f (view body)) tree = Outline.mapAll f (outline view tree) := by
  cases tree with
  | object members => exact outlineMembers_comp f view members
  | null => rfl
  | bool value => rfl
  | number value => rfl
  | string value => rfl
  | array items => rfl

mutual
def Node.outline : Node → Outline Condition
  | .condition field content => .condition field content
  | .group join members => .group join (Node.outlineAll members)

def Node.outlineAll : List Node → List (Outline Condition)
  | [] => []
  | node :: rest => Node.outline node :: outlineAll rest
end

theorem Node.outlineAll_append (first second : List Node) :
    Node.outlineAll (first ++ second) = Node.outlineAll first ++ Node.outlineAll second := by
  induction first with
  | nil => rfl
  | cons node rest ih => rw [List.cons_append, Node.outlineAll, Node.outlineAll, ih,
      List.cons_append]

theorem readMember_cases {depth : Nat} {key : String} {value : Json} {node : Option Node}
    (found : readMember depth key value = .ok node) :
    (∃ join members nodes, value = .object members ∧ Join.named? (untagged key) = some join ∧
      depth < maxDepth ∧ readMembers (depth + 1) members = .ok nodes ∧
      node = some (.group join nodes)) ∨
    (∃ members c, value = .object members ∧ Join.named? (untagged key) = none ∧
      isFieldName (untagged key) = true ∧ readCondition (untagged key) value = .ok c ∧
      node = some (.condition (untagged key) c)) ∨
    (Join.named? (untagged key) = none ∧ isFieldName (untagged key) = false ∧ node = none) := by
  cases grouped : Join.named? (untagged key) with
  | some join =>
      left
      cases value with
      | object members =>
          simp only [readMember, grouped] at found
          split at found
          · cases found
          · next shallow =>
              obtain ⟨nodes, inner, rfl⟩ := ok_of_map found
              exact ⟨join, members, nodes, rfl, rfl, Nat.lt_of_not_le shallow, inner, rfl⟩
      | null | bool | number | string | array =>
          simp only [readMember, grouped] at found
          split at found <;> cases found
  | none =>
      right
      cases allowed : isFieldName (untagged key) with
      | true =>
          left
          cases value with
          | object members =>
              simp only [readMember, grouped, allowed, if_true] at found
              obtain ⟨c, asked, rfl⟩ := ok_of_map found
              exact ⟨members, c, rfl, rfl, rfl, asked, rfl⟩
          | null | bool | number | string | array =>
              simp [readMember, grouped, allowed] at found
      | false =>
          right
          cases value <;> simp [readMember, grouped, allowed] at found <;>
            exact ⟨rfl, rfl, found.symm⟩

theorem readMembers_cons {depth : Nat} {key : String} {value : Json}
    {rest : List (String × Json)} {nodes : List Node}
    (found : readMembers depth ((key, value) :: rest) = .ok nodes) :
    ∃ node more, readMember depth key value = .ok node ∧ readMembers depth rest = .ok more ∧
      nodes = node.toList ++ more := by
  rw [readMembers] at found
  obtain ⟨node, first, continued⟩ := ok_of_bind found
  cases node with
  | none => exact ⟨none, nodes, first, continued, rfl⟩
  | some node =>
      obtain ⟨more, others, rfl⟩ := ok_of_map continued
      exact ⟨some node, more, first, others, rfl⟩

/-- A view shows of a body that is read only what the condition read from it holds. -/
def Shows (view : Json → α) (seen : Condition → α) : Prop :=
  ∀ field body c, readCondition field body = .ok c → view body = seen c

mutual
theorem outlineMember_of_read {view : Json → α} {seen : Condition → α} (faithful : Shows view seen)
    (depth : Nat) (key : String) (value : Json) (node : Option Node)
    (found : readMember depth key value = .ok node) :
    outlineMember view key value = Outline.mapAll seen (Node.outlineAll node.toList) := by
  cases value with
  | object members =>
      rcases readMember_cases found with ⟨join, _, nodes, same, grouped, -, inner, rfl⟩ |
        ⟨_, c, -, grouped, allowed, asked, rfl⟩ | ⟨grouped, refused, rfl⟩
      · cases same
        simp only [outlineMember, grouped]
        rw [outlineMembers_of_read faithful (depth + 1) members nodes inner]
        rfl
      · simp only [outlineMember, grouped, allowed, if_true]
        rw [faithful _ _ c asked]
        rfl
      · simp only [outlineMember, grouped, refused]
        rfl
  | null | bool | number | string | array =>
      -- without an object behind it, only a name that is not allowed is no offence
      rcases readMember_cases found with ⟨_, _, _, absent, -⟩ | ⟨_, _, absent, -⟩ | ⟨-, -, rfl⟩
      · cases absent
      · cases absent
      · rfl

theorem outlineMembers_of_read {view : Json → α} {seen : Condition → α}
    (faithful : Shows view seen) (depth : Nat) (members : List (String × Json))
    (nodes : List Node) (found : readMembers depth members = .ok nodes) :
    outlineMembers view members = Outline.mapAll seen (Node.outlineAll nodes) := by
  cases members with
  | nil =>
      cases found
      rfl
  | cons member rest =>
      obtain ⟨key, value⟩ := member
      obtain ⟨node, more, first, others, rfl⟩ := readMembers_cons found
      rw [outlineMembers, outlineMember_of_read faithful depth key value node first,
        outlineMembers_of_read faithful depth rest more others, Node.outlineAll_append,
        Outline.mapAll_eq, Outline.mapAll_eq, Outline.mapAll_eq, List.map_append]
end

/-- A document that is read has the outline of the nodes that are read from it. -/
theorem outline_of_read {view : Json → α} {seen : Condition → α} (faithful : Shows view seen)
    {tree : Json} {nodes : List Node} (found : read tree = .ok nodes) :
    outline view tree = Outline.mapAll seen (Node.outlineAll nodes) := by
  cases tree with
  | object members => exact outlineMembers_of_read faithful 0 members nodes found
  | null | bool | number | string | array => cases found

/-- Reading a body finds the operator that it names, and the parameter where one is bound. -/
theorem readCondition_cases {field : String} {body : Json} {c : Condition}
    (found : readCondition field body = .ok c) :
    ∃ members, body = .object members ∧
      ((∃ asked, operatorOf body = some (.test asked) ∧ c = .test asked) ∨
        ∃ comparison parameter, operatorOf body = some (.compare comparison) ∧
          readParameter field comparison members = .ok parameter ∧
          c = .compare comparison parameter) := by
  cases body with
  | object members =>
      refine ⟨members, rfl, ?_⟩
      simp only [readCondition] at found
      obtain ⟨operator, named, continued⟩ := ok_of_bind found
      -- every other way to read the member `operator` is an offence
      have told : operatorOf (.object members) = some operator := by
        rw [readOperator] at named
        rw [operatorOf]
        split at named
        · cases named
        · cases named
        · next token given =>
            simp only [given]
            split at named
            · next parsed =>
                cases named
                exact parsed
            · cases named
        · cases named
      cases operator with
      | test asked =>
          cases continued
          exact .inl ⟨asked, told, rfl⟩
      | compare comparison =>
          obtain ⟨parameter, bound, rfl⟩ := ok_of_map continued
          exact .inr ⟨comparison, parameter, told, bound, rfl⟩
  | null | bool | number | string | array => cases found

theorem shows_operator : Shows operatorOf fun c => some c.operator := by
  intro field body c found
  obtain ⟨members, rfl, read⟩ := readCondition_cases found
  rcases read with ⟨asked, told, rfl⟩ | ⟨comparison, parameter, told, -, rfl⟩
  · exact told
  · exact told

mutual
theorem isFieldName_of_outlineMember (view : Json → α) (key : String) (value : Json) :
    ∀ leaf ∈ Outline.leavesAll (outlineMember view key value), isFieldName leaf.1 = true := by
  cases value with
  | object members =>
      rw [outlineMember]
      cases Join.named? (untagged key) with
      | some join =>
          simp only [Outline.leavesAll, Outline.leaves, List.append_nil]
          exact isFieldName_of_outlineMembers view members
      | none =>
          simp only []
          split
          · next allowed =>
              intro leaf found
              cases List.mem_singleton.mp found
              exact allowed
          · intro leaf found
            cases found
  | null | bool | number | string | array =>
      intro leaf found
      cases found

theorem isFieldName_of_outlineMembers (view : Json → α) (members : List (String × Json)) :
    ∀ leaf ∈ Outline.leavesAll (outlineMembers view members), isFieldName leaf.1 = true := by
  cases members with
  | nil =>
      intro leaf found
      cases found
  | cons member rest =>
      obtain ⟨key, value⟩ := member
      intro leaf found
      rw [outlineMembers, Outline.leavesAll_append, List.mem_append] at found
      rcases found with first | others
      · exact isFieldName_of_outlineMember view key value leaf first
      · exact isFieldName_of_outlineMembers view rest leaf others
end

theorem isFieldName_of_outline (view : Json → α) (tree : Json) :
    ∀ leaf ∈ Outline.leavesAll (outline view tree), isFieldName leaf.1 = true := by
  cases tree with
  | object members => exact isFieldName_of_outlineMembers view members
  | null | bool | number | string | array =>
      intro leaf found
      cases found

/-- A filter with a group in mixed case and with a tag, in which there are a field that is spelled
like a join, a group that vanishes and a name that is not allowed. -/
def nestedTree : Json :=
  .object [("name", .object [("operator", .string "="), ("value", .string "a' OR '1'='1")]),
    ("#Or:1", .object [("AND", .object [("operator", .string "isempty")]), ("#and", .object []),
      ("b:2", .object [("operator", .string "LIKE"), ("value", .string "a*")]),
      ("1=1; --", .null)])]

def nestedPredicate : Predicate where
  text := "t.name = :p0_1 AND (NULLIF(t.AND, '') IS NULL OR t.b LIKE :p1_1)"
  parameters := [(":p0_1", .string "a' OR '1'='1"), (":p1_1", .string "a%")]

theorem compile_nestedTree : Predicate.compile "t." .and nestedTree = .ok nestedPredicate := by rfl

end Multicall.Filter
