import Multicall.Proofs.Numbering
import Multicall.Proofs.PredicateMeaning
/-!
Placeholders and parameters side by side. The placeholders that are read in a predicate text, from
left to right, are the names under which its parameters are bound, each once. A comparison stands in
the text with the placeholder of its group and place, and under that name its own value is bound, at
its declared type and as a pattern only where a pattern is asked for.
-/
namespace Multicall.Filter

variable {α β : Type}

/-- The placeholders of a text: every colon with the longest run of letters, digits and `_` behind
it. -/
def placeholdersIn : List Char → List String
  | [] => []
  | c :: rest =>
      if c = ':' then String.ofList (c :: rest.takeWhile isMarkChar) :: placeholdersIn rest
      else placeholdersIn rest

theorem placeholdersIn_plain {text : List Char} (free : ':' ∉ text) (rest : List Char) :
    placeholdersIn (text ++ rest) = placeholdersIn rest := by
  induction text with
  | nil => rfl
  | cons c text ih =>
      rw [List.mem_cons, not_or] at free
      rw [List.cons_append, placeholdersIn, if_neg (Ne.symm free.1), ih free.2]

/-- The placeholders of a text, read up to a place where its last run ends. -/
def HasPlaceholders (text : List Char) (names : List String) : Prop :=
  ∀ rest, Breaks rest → placeholdersIn (text ++ rest) = names ++ placeholdersIn rest

namespace HasPlaceholders

variable {text more : List Char} {names others : List String}

theorem whole (read : HasPlaceholders text names) : placeholdersIn text = names := by
  have ended := read [] breaks_nil
  rw [List.append_nil] at ended
  rw [ended]
  exact List.append_nil names

theorem plain (free : ':' ∉ text) : HasPlaceholders text [] :=
  fun rest _ => placeholdersIn_plain free rest

theorem behind (free : ':' ∉ text) (read : HasPlaceholders more names) :
    HasPlaceholders (text ++ more) names := by
  intro rest ends
  rw [List.append_assoc, placeholdersIn_plain free, read rest ends]

theorem append (read : HasPlaceholders text names) (next : HasPlaceholders more others)
    (broken : ∀ rest, Breaks (more ++ rest)) :
    HasPlaceholders (text ++ more) (names ++ others) := by
  intro rest ends
  rw [List.append_assoc, read _ (broken rest), next rest ends, List.append_assoc]

theorem placeholder (p : Placeholder) : HasPlaceholders p.text.toList [p.text] := by
  intro rest ends
  obtain ⟨run, letters, all⟩ := p.text_mark
  -- the run holds no colon, so no other placeholder starts in it
  have free : ':' ∉ run := fun found => Bool.false_ne_true (all ':' found)
  obtain ⟨taken, -⟩ := run_ends isMarkChar rfl all ends
  rw [letters, List.cons_append, placeholdersIn, if_pos rfl, placeholdersIn_plain free, taken,
    ← letters, String.ofList_toList]
  rfl

end HasPlaceholders

theorem colon_not_mem_of_isFieldName {field : String} (named : isFieldName field = true) :
    ':' ∉ field.toList := by
  rw [isFieldName, Ascii.consistsOf, Bool.and_eq_true] at named
  intro found
  exact Bool.false_ne_true (List.all_eq_true.mp named.2 ':' found)

theorem FieldTest.colon_not_mem_sql {field : String} (free : ':' ∉ field.toList)
    (asked : FieldTest) : ':' ∉ (asked.sql field).toList := by
  cases asked <;> simp [sql, String.toList_append, free]

theorem Comparison.colon_not_mem_sql (comparison : Comparison) : ':' ∉ comparison.sql.toList := by
  cases comparison <;> decide

theorem Join.breaks (join : Join) (behind : List Char) :
    Breaks ((" " ++ join.sql ++ " ").toList ++ behind) := by
  rw [String.toList_append, String.toList_append]
  exact breaks_cons (by decide) _

mutual
theorem Clause.hasPlaceholders {fieldPrefix : String} (free : ':' ∉ fieldPrefix.toList)
    (clause : Clause) (named : ∀ leaf ∈ clause.outline.leaves, isFieldName leaf.1 = true) :
    HasPlaceholders (clause.sql fieldPrefix).toList (clause.owners.map fun o => o.1.text) := by
  cases clause with
  | test field asked =>
      have plain := colon_not_mem_of_isFieldName (named _ List.mem_cons_self)
      refine HasPlaceholders.plain (FieldTest.colon_not_mem_sql ?_ asked)
      rw [String.toList_append, List.mem_append]
      exact fun found => found.elim free plain
  | compare field comparison placeholder parameter =>
      have plain := colon_not_mem_of_isFieldName (named _ List.mem_cons_self)
      have spelled := comparison.colon_not_mem_sql
      rw [Clause.sql, String.toList_append]
      refine HasPlaceholders.behind ?_ (.placeholder placeholder)
      simp [String.toList_append, free, plain, spelled]
  | group join clauses =>
      have inner := Clause.hasPlaceholdersAll free join clauses named
      have closed : HasPlaceholders ")".toList [] := .plain (by decide)
      rw [Clause.sql, String.toList_append, String.toList_append, List.append_assoc]
      refine HasPlaceholders.behind (by decide) ?_
      have whole := inner.append closed fun _ => breaks_cons (by decide) _
      rw [List.append_nil] at whole
      exact whole

theorem Clause.hasPlaceholdersAll {fieldPrefix : String} (free : ':' ∉ fieldPrefix.toList)
    (join : Join) (clauses : List Clause)
    (named : ∀ leaf ∈ Outline.leavesAll (Clause.outlineAll clauses), isFieldName leaf.1 = true) :
    HasPlaceholders (join.between (Clause.sqlAll fieldPrefix clauses)).toList
      ((Clause.ownersAll clauses).map fun o => o.1.text) := by
  cases clauses with
  | nil => exact .plain List.not_mem_nil
  | cons clause rest =>
      have head := Clause.hasPlaceholders free clause
        fun leaf found => named leaf (List.mem_append_left _ found)
      have tail := Clause.hasPlaceholdersAll free join rest
        fun leaf found => named leaf (List.mem_append_right _ found)
      rw [Clause.sqlAll, Clause.ownersAll, List.map_append]
      cases rest with
      | nil =>
          rw [Clause.sqlAll, join.between_single, Clause.ownersAll, List.map_nil, List.append_nil]
          exact head
      | cons other more =>
          have spelled : ':' ∉ (" " ++ join.sql ++ " ").toList := by cases join <;> decide
          rw [Clause.sqlAll, join.between_cons_cons, String.toList_append,
            String.toList_append, List.append_assoc]
          refine head.append (.behind spelled tail) fun after => ?_
          rw [List.append_assoc]
          exact join.breaks _
end

/-! A comparison stands in a text by itself, neither as a part of a longer word nor cut off. -/

/-- Where a condition may begin: at the start, behind a blank or behind a parenthesis. -/
def Opens (before : List Char) : Prop := ∀ c, before.getLast? = some c → c = ' ' ∨ c = '('

/-- A text has a part that stands by itself. -/
def Holds (text part : List Char) : Prop :=
  ∃ before behind, text = before ++ part ++ behind ∧ Opens before ∧ Breaks behind

theorem opens_nil : Opens [] := fun _ found => nomatch found

theorem Join.opens (join : Join) (before : List Char) :
    Opens (before ++ (" " ++ join.sql ++ " ").toList) := by
  intro c found
  rw [List.getLast?_append] at found
  left
  cases join <;> exact (Option.some.inj found).symm

theorem Holds.refl (text : List Char) : Holds text text :=
  ⟨[], [], (List.append_nil text).symm, opens_nil, breaks_nil⟩

theorem Holds.within {text part before behind : List Char} (held : Holds text part)
    (opened : Opens before) (broken : Breaks behind) : Holds (before ++ text ++ behind) part := by
  obtain ⟨first, last, rfl, starts, ends⟩ := held
  refine ⟨before ++ first, last ++ behind, by simp only [List.append_assoc], ?_, ?_⟩
  · intro c found
    rw [List.getLast?_append] at found
    cases empty : first.getLast? with
    | none =>
        rw [empty, Option.none_or] at found
        exact opened c found
    | some d =>
        rw [empty, Option.some_or] at found
        exact starts c (empty.trans found)
  · intro c found
    cases last with
    | nil => exact broken c found
    | cons d rest => exact ends c found

def comparisonText (fieldPrefix field : String) (comparison : Comparison) (p : Placeholder) :
    String :=
  fieldPrefix ++ field ++ " " ++ comparison.sql ++ " " ++ p.text

mutual
theorem Clause.holds_owner (fieldPrefix : String) (clause : Clause) :
    ∀ owner ∈ clause.owners, Holds (clause.sql fieldPrefix).toList
      (comparisonText fieldPrefix owner.2.1 owner.2.2.1 owner.1).toList := by
  cases clause with
  | test field asked =>
      intro owner found
      cases found
  | compare field comparison placeholder parameter =>
      intro owner found
      cases List.mem_singleton.mp found
      exact Holds.refl _
  | group join clauses =>
      intro owner found
      rw [Clause.sql, String.toList_append, String.toList_append]
      exact (Clause.holdsAll_owner fieldPrefix join clauses owner found).within
        (fun c last => .inr (Option.some.inj last).symm) (breaks_cons (by decide) [])

theorem Clause.holdsAll_owner (fieldPrefix : String) (join : Join) (clauses : List Clause) :
    ∀ owner ∈ Clause.ownersAll clauses,
      Holds (join.between (Clause.sqlAll fieldPrefix clauses)).toList
        (comparisonText fieldPrefix owner.2.1 owner.2.2.1 owner.1).toList := by
  cases clauses with
  | nil =>
      intro owner found
      cases found
  | cons clause rest =>
      intro owner found
      rw [Clause.sqlAll]
      cases rest with
      | nil =>
          rw [Clause.ownersAll, Clause.ownersAll, List.append_nil] at found
          rw [Clause.sqlAll, join.between_single]
          exact Clause.holds_owner fieldPrefix clause owner found
      | cons other more =>
          rw [Clause.sqlAll, join.between_cons_cons, String.toList_append,
            String.toList_append]
          rw [Clause.ownersAll, List.mem_append] at found
          rcases found with first | others
          · have held := Clause.holds_owner fieldPrefix clause owner first
            rw [List.append_assoc]
            exact held.within opens_nil (join.breaks _)
          · have held := Clause.holdsAll_owner fieldPrefix join (other :: more) owner others
            have whole := held.within (join.opens (clause.sql fieldPrefix).toList) breaks_nil
            rw [List.append_nil] at whole
            exact whole
end

/-! What a comparison binds is told by the body of its condition alone. -/

/-- The value that a condition is about. One that is absent counts as null. -/
def valueOf : Json → Json
  | .object members => (Assoc.get? "value" members).getD .null
  | _ => .null

def typeOf : Json → ValueType
  | .object members => declaredType members
  | _ => .string

/-- The parameter that a comparison binds for a body. -/
def parameterOf (comparison : Comparison) (body : Json) : Option Parameter :=
  (coerce? (valueOf body) (typeOf body)).map fun raw =>
    if comparison.takesPattern then raw.asPattern else raw

def Operator.comparison? : Operator → Option Comparison
  | .test _ => none
  | .compare comparison => some comparison

/-- The condition with an operator that a body asks for. -/
def Operator.condition? (body : Json) : Operator → Option Condition
  | .test asked => some (.test asked)
  | .compare comparison => (parameterOf comparison body).map (.compare comparison)

def conditionOf (body : Json) : Option Condition :=
  (operatorOf body).bind fun operator => operator.condition? body

/-- The comparisons among conditions, in order, each with its body. -/
def comparisonsIn (leaves : List (String × Json)) : List (String × Comparison × Json) :=
  leaves.filterMap fun leaf =>
    ((operatorOf leaf.2).bind Operator.comparison?).map (leaf.1, ·, leaf.2)

theorem readParameter_eq {field : String} {comparison : Comparison} {members : Members}
    {parameter : Parameter} (found : readParameter field comparison members = .ok parameter) :
    parameterOf comparison (.object members) = some parameter := by
  rw [readParameter] at found
  simp only [parameterOf, valueOf, typeOf]
  split at found
  · cases found
  · next raw coerced =>
      cases found
      rw [coerced]
      rfl

theorem shows_condition : Shows conditionOf some := by
  intro field body c found
  obtain ⟨members, rfl, read⟩ := readCondition_cases found
  rcases read with ⟨asked, told, rfl⟩ | ⟨comparison, parameter, told, bound, rfl⟩
  · rw [conditionOf, told]
    rfl
  · rw [conditionOf, told, Option.bind_some, Operator.condition?, readParameter_eq bound]
    rfl

/-- Bodies that are read bind the parameters that their conditions hold. -/
theorem comparisonsIn_bound {leaves : List (String × Json)} {conditions : List (String × Condition)}
    (read : leaves.map (fun leaf => (leaf.1, conditionOf leaf.2)) =
      conditions.map fun leaf => (leaf.1, some leaf.2)) :
    (comparisonsIn leaves).map (fun c => (c.1, c.2.1, parameterOf c.2.1 c.2.2)) =
      (boundIn conditions).map fun c => (c.1, c.2.1, some c.2.2) := by
  induction leaves generalizing conditions with
  | nil =>
      cases conditions with
      | nil => rfl
      | cons leaf rest => cases read
  | cons leaf rest ih =>
      cases conditions with
      | nil => cases read
      | cons condition more =>
          obtain ⟨field, body⟩ := leaf
          obtain ⟨name, c⟩ := condition
          simp only [List.map_cons, List.cons.injEq, Prod.mk.injEq] at read
          obtain ⟨⟨rfl, same⟩, others⟩ := read
          have behind := ih others
          obtain ⟨operator, told, same⟩ := Option.bind_eq_some_iff.mp same
          rw [comparisonsIn, List.filterMap_cons, told, boundIn, List.filterMap_cons]
          cases operator with
          | test asked =>
              cases same
              exact behind
          | compare comparison =>
              obtain ⟨parameter, bound, rfl⟩ := Option.map_eq_some_iff.mp same
              have first : (field, comparison, parameterOf comparison body) =
                  (field, comparison, some parameter) := by rw [bound]
              exact congr (congrArg List.cons first) behind

theorem Parameter.asPattern_free (p : Parameter) :
    ∃ s, p.asPattern = .string s ∧ '*' ∉ s.toList := by
  refine ⟨_, rfl, ?_⟩
  rw [String.toList_ofList, List.mem_map]
  rintro ⟨c, -, same⟩
  split at same
  · cases same
  · next differs => exact differs same

def kindOf : Json → Option String
  | .string _ => some "string"
  | .number (.int _) => some "integer"
  | .bool _ => some "boolean"
  | .null => some "null"
  | _ => none

theorem Parameter.kindOf_value (p : Parameter) : kindOf p.value = some p.kind := by
  cases p <;> rfl

theorem conditions_of_read {tree : Json} {nodes : List Node}
    (found : read tree = .ok nodes) :
    Outline.mapAll conditionOf (outline id tree) = Outline.mapAll some (Node.outlineAll nodes) :=
  (outline_comp conditionOf id tree).symm.trans (outline_of_read shows_condition found)

theorem comparisonsIn_leaves {tree : Json} {nodes : List Node}
    (found : read tree = .ok nodes) :
    (comparisonsIn (Outline.leavesAll (outline id tree))).length =
      (boundIn (Outline.leavesAll (Node.outlineAll nodes))).length := by
  have same := congrArg Outline.leavesAll (conditions_of_read found)
  rw [Outline.leavesAll_mapAll, Outline.leavesAll_mapAll] at same
  have lengths := congrArg List.length (comparisonsIn_bound same)
  rw [List.length_map, List.length_map] at lengths
  exact lengths

/-- A comparison directly in a group of a document is one of the nodes that are read, and binds the
parameter of its body. -/
theorem comparison_of_visited {tree : Json} {nodes : List Node}
    (found : read tree = .ok nodes) {k n : Nat} {group : List (Outline Json)} {field : String}
    {comparison : Comparison} {body : Json}
    (reached : (Outline.visited (outline id tree))[k]? = some group)
    (placed : (comparisonsIn (Outline.direct group))[n]? = some (field, comparison, body)) :
    ∃ members parameter,
      (Outline.visited (Node.outlineAll nodes))[k]? = some members ∧
      (boundIn (Outline.direct members))[n]? = some (field, comparison, parameter) ∧
      parameterOf comparison body = some parameter := by
  -- the group of nodes at the same place, and in it the comparison at the same place
  have groups := congrArg (fun ms => (Outline.visited ms)[k]?) (conditions_of_read found)
  simp only [Outline.visited_mapAll, List.getElem?_map, reached, Option.map_some] at groups
  obtain ⟨members, there, same⟩ := Option.map_eq_some_iff.mp groups.symm
  have leaves := congrArg Outline.direct same.symm
  rw [Outline.direct_mapAll, Outline.direct_mapAll] at leaves
  have entries := congrArg (fun es => es[n]?) (comparisonsIn_bound leaves)
  simp only [List.getElem?_map, placed, Option.map_some] at entries
  obtain ⟨⟨name, asked, parameter⟩, bound, equal⟩ := Option.map_eq_some_iff.mp entries.symm
  simp only [Prod.mk.injEq] at equal
  obtain ⟨rfl, rfl, told⟩ := equal
  exact ⟨members, parameter, there, bound, told.symm⟩

namespace Predicate

/-- The placeholders in a predicate text, from left to right, are the names of its parameters, all
different and as many as comparisons survive. The comparison in place `n` of group `k` stands in the
text with the placeholder of these numbers, and under that name the value of its body is bound. -/
theorem placeholders_align (fieldPrefix : String) (join : Join) (tree : Json)
    (predicate : Predicate) (free : ':' ∉ fieldPrefix.toList)
    (compiled : compile fieldPrefix join tree = .ok predicate) :
    placeholdersIn predicate.text.toList = predicate.parameters.keys ∧
      predicate.parameters.keys.Nodup ∧
      predicate.parameters.length =
        (comparisonsIn (Outline.leavesAll (outline id tree))).length ∧
      (∀ k n group field comparison body,
        (Outline.visited (outline id tree))[k]? = some group →
        (comparisonsIn (Outline.direct group))[n]? = some (field, comparison, body) →
        Holds predicate.text.toList
            (comparisonText fieldPrefix field comparison ⟨k, n + 1⟩).toList ∧
          ∃ raw parameter, coerce? (valueOf body) (typeOf body) = some raw ∧
            parameter = (if comparison.takesPattern then raw.asPattern else raw) ∧
            predicate.parameters.get? (Placeholder.text ⟨k, n + 1⟩) = some parameter ∧
            (comparison.takesPattern = true → ∃ s, parameter = .string s ∧ '*' ∉ s.toList)) ∧
      ∀ entry ∈ predicate.parameters, kindOf entry.2.value = some entry.2.kind := by
  obtain ⟨nodes, found, rfl⟩ := ok_of_map compiled
  -- the clauses carry the numbers in the order of reading; everything is read off them
  have numbered := clauses_numbered nodes
  have named := isFieldName_of_outline operatorOf tree
  rw [← (clauses_keep found).leaves] at named
  have text : (ofClauses fieldPrefix join (clauses nodes)).text =
      join.between (Clause.sqlAll fieldPrefix (clauses nodes)) := rfl
  have parameters : (ofClauses fieldPrefix join (clauses nodes)).parameters =
      (Clause.ownersAll (clauses nodes)).map fun owner => (owner.1.text, owner.2.2.2) :=
    numbered.parameters_eq
  have keys : (ofClauses fieldPrefix join (clauses nodes)).parameters.keys =
      (Clause.ownersAll (clauses nodes)).map fun owner => owner.1.text := by
    rw [parameters, Assoc.keys, List.map_map]
    rfl
  have apart : (ofClauses fieldPrefix join (clauses nodes)).parameters.keys.Nodup := by
    rw [keys]
    exact numbered.texts_apart
  refine ⟨?_, apart, ?_, ?_, fun entry _ => entry.2.kindOf_value⟩
  · rw [keys, text]
    exact (Clause.hasPlaceholdersAll free join (clauses nodes) named).whole
  · rw [parameters, List.length_map, comparisonsIn_leaves found, ← numbered.order, List.length_map]
  · intro k n group field comparison body reached placed
    obtain ⟨members, parameter, there, bound, told⟩ := comparison_of_visited found reached placed
    have owned := numbered.owner_of_visited there bound
    have held := Clause.holdsAll_owner fieldPrefix join (clauses nodes) _ owned
    rw [text]
    refine ⟨held, ?_⟩
    obtain ⟨raw, coerced, rfl⟩ := Option.map_eq_some_iff.mp told
    refine ⟨raw, _, coerced, rfl, ?_, ?_⟩
    · apply Assoc.get?_of_mem apart
      rw [parameters]
      exact List.mem_map.mpr ⟨_, owned, rfl⟩
    · intro pattern
      rw [if_pos pattern]
      exact raw.asPattern_free

theorem nested_placeholders_align :
    compile "t." .and nestedTree = .ok nestedPredicate ∧
      placeholdersIn nestedPredicate.text.toList = [":p0_1", ":p1_1"] ∧
      Holds nestedPredicate.text.toList "t.b LIKE :p1_1".toList ∧
      ∃ s, nestedPredicate.parameters.get? ":p1_1" = some (.string s) ∧ '*' ∉ s.toList := by
  obtain ⟨names, -, -, owned, -⟩ :=
    placeholders_align "t." .and nestedTree nestedPredicate (by decide) compile_nestedTree
  obtain ⟨held, raw, parameter, -, -, bound, free⟩ := owned 1 0 _ "b" .like _ rfl rfl
  obtain ⟨s, rfl, clear⟩ := free rfl
  exact ⟨compile_nestedTree, names, held, s, bound, clear⟩

end Predicate

end Multicall.Filter
