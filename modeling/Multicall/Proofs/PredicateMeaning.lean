import Multicall.Proofs.FilterOutline
import Multicall.Proofs.PredicateGrammar
/-!
Compiled filters keep the meaning of their documents. The truth of a filter comes from the truth of
its conditions, which may be any: a group joins the values of its surviving members, and a group
without any has no value and leaves nothing. The predicate text is empty when nothing survives, and
is otherwise read in one way only, as an expression over the same conditions in the same order with
the same value.
-/
namespace Multicall.Filter

variable {α β : Type}

namespace Join

def combine : Join → List Bool → Bool
  | .and, values => values.all id
  | .or, values => values.any id

/-- The value of a group whose surviving members have the given values. -/
def value? (join : Join) (values : List Bool) : Option Bool :=
  if values.isEmpty then none else some (join.combine values)

def level : Join → Level
  | .and => .conjunction
  | .or => .disjunction

def expression : Join → Expression → Expression → Expression
  | .and => .and
  | .or => .or

theorem value?_single (join : Join) (value : Bool) : join.value? [value] = some value := by
  cases join <;> simp [value?, combine]

theorem value?_cons (join : Join) (value : Bool) {rest : List Bool} {other : Bool}
    (joined : join.value? rest = some other) :
    join.value? (value :: rest) = some (join.combine [value, other]) := by
  cases rest with
  | nil => cases joined
  | cons next more =>
      cases joined
      cases join <;> simp [value?, combine]

end Join

namespace Outline

mutual
/-- The value of a member whose conditions have the places from `first` on, where `truth` tells the
truth of the condition in each place. -/
def value? (truth : Nat → Bool) (first : Nat) : Outline α → Option Bool
  | .condition _ _ => some (truth first)
  | .group join members => join.value? (values truth first members)

def values (truth : Nat → Bool) (first : Nat) : List (Outline α) → List Bool
  | [] => []
  | member :: rest =>
      (value? truth first member).toList ++ values truth (first + member.leaves.length) rest
end

theorem values_append (truth : Nat → Bool) (first : Nat) (before behind : List (Outline α)) :
    values truth first (before ++ behind) =
      values truth first before ++ values truth (first + (leavesAll before).length) behind := by
  induction before generalizing first with
  | nil => rfl
  | cons member rest ih =>
      rw [List.cons_append, values, values, leavesAll, ih, List.length_append, List.append_assoc,
        Nat.add_assoc]

end Outline

namespace Expression

def tests : Expression → List Test
  | .test asked => [asked]
  | .and left right | .or left right => left.tests ++ right.tests

/-- The value of an expression whose tests have the places from `first` on. -/
def value (truth : Nat → Bool) (first : Nat) : Expression → Bool
  | .test _ => truth first
  | .and left right => left.value truth first && right.value truth (first + left.tests.length)
  | .or left right => left.value truth first || right.value truth (first + left.tests.length)

/-- The fields that are tested, each with the operator that tests it. -/
def subjects (e : Expression) : List (String × Option Operator) :=
  e.tests.map fun test => (test.field, some test.operator)

end Expression

mutual
def Clause.outline : Clause → Outline (Option Operator)
  | .test field asked => .condition field (some (.test asked))
  | .compare field comparison _ _ => .condition field (some (.compare comparison))
  | .group join clauses => .group join (Clause.outlineAll clauses)

def Clause.outlineAll : List Clause → List (Outline (Option Operator))
  | [] => []
  | clause :: rest => Clause.outline clause :: outlineAll rest
end

theorem Clause.outlineAll_append (first second : List Clause) :
    Clause.outlineAll (first ++ second) = Clause.outlineAll first ++ Clause.outlineAll second := by
  induction first with
  | nil => rfl
  | cons clause rest ih => rw [List.cons_append, Clause.outlineAll, Clause.outlineAll, ih,
      List.cons_append]

/-- Clauses keep what counts of a filter: the conditions and the values under any truth, with no
group left that has no member. -/
structure Keeps (clauses : List Clause) (members : List (Outline (Option Operator))) : Prop where
  filled : ∀ group ∈ Outline.groupsAll (Clause.outlineAll clauses), group ≠ []
  leaves : Outline.leavesAll (Clause.outlineAll clauses) = Outline.leavesAll members
  values : ∀ truth first,
    Outline.values truth first (Clause.outlineAll clauses) = Outline.values truth first members

namespace Keeps

theorem nil : Keeps [] [] := ⟨by simp [Clause.outlineAll, Outline.groupsAll], rfl, fun _ _ => rfl⟩

theorem append {first second : List Clause} {before behind : List (Outline (Option Operator))}
    (kept : Keeps first before) (others : Keeps second behind) :
    Keeps (first ++ second) (before ++ behind) where
  filled := by
    intro group found
    rw [Clause.outlineAll_append, Outline.groupsAll_append, List.mem_append] at found
    exact found.elim (kept.filled group) (others.filled group)
  leaves := by
    rw [Clause.outlineAll_append, Outline.leavesAll_append, Outline.leavesAll_append, kept.leaves,
      others.leaves]
  values := by
    intro truth first
    rw [Clause.outlineAll_append, Outline.values_append, Outline.values_append, kept.values,
      kept.leaves, others.values]

theorem vanished {members : List (Outline (Option Operator))} (join : Join)
    (kept : Keeps [] members) : Keeps [] [.group join members] where
  filled := kept.filled
  leaves := by
    rw [kept.leaves, Outline.leavesAll, Outline.leaves, Outline.leavesAll, List.append_nil]
  values := by
    intro truth first
    simp only [Outline.values, Outline.value?, List.append_nil]
    rw [← kept.values truth first]
    rfl

theorem group {clauses : List Clause} {members : List (Outline (Option Operator))} (join : Join)
    (kept : Keeps clauses members) (left : clauses ≠ []) :
    Keeps [.group join clauses] [.group join members] where
  filled := by
    intro group found
    simp only [Clause.outlineAll, Clause.outline, Outline.groupsAll, Outline.groups,
      List.append_nil, List.mem_cons] at found
    cases found with
    | inl same =>
        cases clauses with
        | nil => exact absurd rfl left
        | cons clause rest => simp [same, Clause.outlineAll]
    | inr inside => exact kept.filled group inside
  leaves := by
    simp only [Clause.outlineAll, Clause.outline, Outline.leavesAll, Outline.leaves,
      List.append_nil]
    exact kept.leaves
  values := by
    intro truth first
    simp only [Clause.outlineAll, Clause.outline, Outline.values, Outline.value?, kept.values]

end Keeps

mutual
theorem Node.number_keeps (own leaves next : Nat) (node : Node) :
    Keeps (Node.number own leaves next node).1.toList
      [node.outline.map fun c => some c.operator] := by
  cases node with
  | condition field c =>
      cases c <;> exact ⟨fun _ found => absurd found List.not_mem_nil, rfl, fun _ _ => rfl⟩
  | group join members =>
      have kept := Node.numberAll_keeps next 0 (next + 1) members
      simp only [Node.number, Node.outline, Outline.map]
      -- whether the group is left depends on whether anything in it is
      cases clauses : (Node.numberAll next 0 (next + 1) members).1 with
      | nil =>
          rw [clauses] at kept
          exact kept.vanished join
      | cons clause rest =>
          rw [clauses] at kept
          exact kept.group join (List.cons_ne_nil clause rest)

theorem Node.numberAll_keeps (own leaves next : Nat) (nodes : List Node) :
    Keeps (Node.numberAll own leaves next nodes).1
      (Outline.mapAll (fun c => some c.operator) (Node.outlineAll nodes)) := by
  cases nodes with
  | nil => exact Keeps.nil
  | cons node rest =>
      rw [Node.numberAll_cons]
      exact (Node.number_keeps own leaves next node).append (Node.numberAll_keeps own _ _ rest)
end

theorem clauses_keep {tree : Json} {nodes : List Node} (found : read tree = .ok nodes) :
    Keeps (clauses nodes) (outline operatorOf tree) := by
  rw [outline_of_read shows_operator found]
  exact Node.numberAll_keeps 0 0 1 nodes

/-- A text is read as an expression of a level that tests the given conditions, each behind the
prefix, and has the given value. -/
def Renders (fieldPrefix : String) (level : Level) (text : String)
    (leaves : List (String × Option Operator)) (value? : (Nat → Bool) → Nat → Option Bool) : Prop :=
  ∃ row e, HasTokens text.toList row ∧ Spells level row e ∧
    e.subjects = leaves.map (fun leaf => (fieldPrefix ++ leaf.1, leaf.2)) ∧
    ∀ truth first, value? truth first = some (e.value truth first)

theorem Expression.length_tests (e : Expression) : e.tests.length = e.subjects.length := by
  rw [subjects, List.length_map]

theorem Expression.subjects_join (join : Join) (left right : Expression) :
    (join.expression left right).subjects = left.subjects ++ right.subjects := by
  cases join <;> exact List.map_append

theorem Expression.value_join (join : Join) (left right : Expression) (truth : Nat → Bool)
    (first : Nat) :
    (join.expression left right).value truth first =
      join.combine [left.value truth first, right.value truth (first + left.tests.length)] := by
  cases join <;> simp [Join.expression, Join.combine, value]

theorem Spells.join (join : Join) {row more : List Token} {left right : Expression}
    (first : Spells .factor row left) (rest : Spells join.level more right) :
    Spells join.level (row ++ .word join.sql :: more) (join.expression left right) := by
  cases join with
  | and => exact first.and rest
  | or => exact first.factor.or rest

theorem Spells.single (join : Join) {row : List Token} {e : Expression}
    (alone : Spells .factor row e) : Spells join.level row e := by
  cases join with
  | and => exact alone.factor
  | or => exact alone.factor.conjunction

theorem Spells.predicate (join : Join) {row : List Token} {e : Expression}
    (joined : Spells join.level row e) : Spells .disjunction row e := by
  cases join with
  | and => exact joined.conjunction
  | or => exact joined

namespace Renders

variable {fieldPrefix text : String} {leaves : List (String × Option Operator)}
  {value? : (Nat → Bool) → Nat → Option Bool}

theorem test (asked : Test) (plain : asked.Plain) {field : String} {operator : Operator}
    (same : asked.field = fieldPrefix ++ field) (of : asked.operator = operator) :
    Renders fieldPrefix .factor asked.text [(field, some operator)]
      fun truth first => some (truth first) := by
  refine ⟨asked.tokens, .test asked, Test.text_hasTokens plain, .test asked, ?_, fun _ _ => rfl⟩
  rw [List.map_singleton, ← same, ← of]
  rfl

theorem parentheses (inner : Renders fieldPrefix .disjunction text leaves value?) :
    Renders fieldPrefix .factor ("(" ++ text ++ ")") leaves value? := by
  obtain ⟨row, e, read, spelled, tested, meant⟩ := inner
  refine ⟨.opening :: (row ++ [.closing]), e, ?_, .parentheses spelled, tested, meant⟩
  rw [String.toList_append, String.toList_append]
  exact (read.append HasTokens.nil.closing fun _ => breaks_cons (by decide) _).opening

/-- One member alone has the value of that member. -/
theorem single (join : Join) (alone : Renders fieldPrefix .factor text leaves value?) :
    Renders fieldPrefix join.level text leaves
      fun truth place => join.value? ((value? truth place).toList ++ []) := by
  obtain ⟨row, e, read, spelled, tested, meant⟩ := alone
  refine ⟨row, e, read, .single join spelled, tested, ?_⟩
  intro truth place
  simp only [meant truth place]
  exact join.value?_single _

theorem join (join : Join) {more : String} {others : List (String × Option Operator)}
    {values : (Nat → Bool) → Nat → List Bool}
    (first : Renders fieldPrefix .factor text leaves value?)
    (rest : Renders fieldPrefix join.level more others
      fun truth place => join.value? (values truth place)) :
    Renders fieldPrefix join.level (text ++ (" " ++ join.sql ++ " ") ++ more) (leaves ++ others)
      fun truth place =>
        join.value? ((value? truth place).toList ++ values truth (place + leaves.length)) := by
  obtain ⟨row, left, read, spelled, tested, meant⟩ := first
  obtain ⟨rest, right, readRest, spelledRest, testedRest, meantRest⟩ := rest
  refine ⟨row ++ .word join.sql :: rest, join.expression left right, ?_,
    spelled.join join spelledRest, ?_, ?_⟩
  · have word : HasTokens join.sql.toList [.word join.sql] :=
      HasTokens.word join.sql (by cases join <;> decide)
    have whole := read.spaced (word.spaced readRest)
    simpa [String.toList_append] using whole
  · rw [Expression.subjects_join, tested, testedRest, List.map_append]
  · intro truth place
    -- the tests of the second half take the places behind those of the first
    have placed : left.tests.length = leaves.length := by
      rw [Expression.length_tests, tested, List.length_map]
    simp only [meant truth place, Expression.value_join, placed]
    exact join.value?_cons _ (meantRest truth (place + leaves.length))

theorem predicate {join : Join} (joined : Renders fieldPrefix join.level text leaves value?) :
    Renders fieldPrefix .disjunction text leaves value? := by
  obtain ⟨row, e, read, spelled, tested, meant⟩ := joined
  exact ⟨row, e, read, spelled.predicate join, tested, meant⟩

end Renders

theorem consistsOf_append {inClass : Char → Bool} {before name : String}
    (all : before.toList.all inClass = true) (named : Ascii.consistsOf inClass name = true) :
    Ascii.consistsOf inClass (before ++ name) = true := by
  simp only [Ascii.consistsOf, Bool.and_eq_true, Bool.not_eq_true', String.toList_append,
    List.all_append] at named ⊢
  refine ⟨?_, all, named.2⟩
  cases letters : name.toList with
  | nil => simp [letters] at named
  | cons c rest => simp

mutual
theorem Clause.renders {fieldPrefix : String} (spelled : fieldPrefix.toList.all isFieldChar = true)
    (clause : Clause)
    (named : ∀ leaf ∈ clause.outline.leaves, isFieldName leaf.1 = true)
    (filled : ∀ group ∈ clause.outline.groups, group ≠ []) :
    Renders fieldPrefix .factor (clause.sql fieldPrefix) clause.outline.leaves
      fun truth first => clause.outline.value? truth first := by
  cases clause with
  | test field asked =>
      have allowed := consistsOf_append spelled (named _ List.mem_cons_self)
      exact Renders.test (.asks (fieldPrefix ++ field) asked)
        ⟨allowed, fun _ _ _ same => nomatch same⟩ rfl rfl
  | compare field comparison placeholder parameter =>
      have allowed := consistsOf_append spelled (named _ List.mem_cons_self)
      exact Renders.test (.compares (fieldPrefix ++ field) comparison placeholder.text)
        ⟨allowed, fun _ _ _ same => by
          cases same
          exact placeholder.text_mark⟩ rfl rfl
  | group join clauses =>
      have left : Clause.outlineAll clauses ≠ [] := filled _ List.mem_cons_self
      rw [Clause.sql]
      have inner := Clause.rendersAll spelled join clauses left named
        fun group found => filled group (List.mem_cons_of_mem _ found)
      exact inner.predicate.parentheses

theorem Clause.rendersAll {fieldPrefix : String}
    (spelled : fieldPrefix.toList.all isFieldChar = true) (join : Join) (clauses : List Clause)
    (left : Clause.outlineAll clauses ≠ [])
    (named : ∀ leaf ∈ Outline.leavesAll (Clause.outlineAll clauses), isFieldName leaf.1 = true)
    (filled : ∀ group ∈ Outline.groupsAll (Clause.outlineAll clauses), group ≠ []) :
    Renders fieldPrefix join.level (join.between (Clause.sqlAll fieldPrefix clauses))
      (Outline.leavesAll (Clause.outlineAll clauses))
      fun truth first => join.value? (Outline.values truth first (Clause.outlineAll clauses)) := by
  cases clauses with
  | nil => exact absurd rfl left
  | cons clause rest =>
      have head := Clause.renders spelled clause
        (fun leaf found => named leaf (List.mem_append_left _ found))
        (fun group found => filled group (List.mem_append_left _ found))
      cases rest with
      | nil =>
          rw [Clause.sqlAll, Clause.sqlAll, join.between_single, Clause.outlineAll,
            Clause.outlineAll, Outline.leavesAll, Outline.leavesAll, List.append_nil]
          exact head.single join
      | cons other more =>
          have tail := Clause.rendersAll spelled join (other :: more) (List.cons_ne_nil _ _)
            (fun leaf found => named leaf (List.mem_append_right _ found))
            (fun group found => filled group (List.mem_append_right _ found))
          rw [Clause.sqlAll, Clause.sqlAll, join.between_cons_cons]
          exact head.join join tail
end

mutual
theorem Outline.leaves_ne_nil (member : Outline α) (filled : ∀ group ∈ member.groups, group ≠ []) :
    member.leaves ≠ [] := by
  cases member with
  | condition field content => exact List.cons_ne_nil _ _
  | group join members =>
      exact Outline.leavesAll_ne_nil members (filled members List.mem_cons_self)
        fun group found => filled group (List.mem_cons_of_mem members found)

/-- Members have a condition among them when no group is without members. -/
theorem Outline.leavesAll_ne_nil (members : List (Outline α)) (left : members ≠ [])
    (filled : ∀ group ∈ Outline.groupsAll members, group ≠ []) :
    Outline.leavesAll members ≠ [] := by
  cases members with
  | nil => exact absurd rfl left
  | cons member rest =>
      have first := Outline.leaves_ne_nil member
        fun group found => filled group (List.mem_append_left _ found)
      exact fun none => first (List.append_eq_nil_iff.mp none).1
end

theorem Renders.text_ne_empty {fieldPrefix text : String} {level : Level}
    {leaves : List (String × Option Operator)} {value? : (Nat → Bool) → Nat → Option Bool}
    (rendered : Renders fieldPrefix level text leaves value?) : text ≠ "" := by
  obtain ⟨row, e, read, spelled, -⟩ := rendered
  rintro rfl
  have none : some [] = some row := HasTokens.nil.whole.symm.trans read.whole
  exact spelled.ne_nil (Option.some.inj none).symm

namespace Predicate

/-- The predicate of a filter is empty when no condition survives. Otherwise it has exactly one
reading: an expression with the tests of the surviving conditions, in document order, whose value
under every truth of the conditions is that of the filter. -/
theorem compile_keeps_meaning (fieldPrefix : String) (join : Join) (tree : Json)
    (predicate : Predicate) (spelled : fieldPrefix.toList.all isFieldChar = true)
    (compiled : compile fieldPrefix join tree = .ok predicate) :
    (predicate.text = "" ↔ Outline.leavesAll (outline operatorOf tree) = []) ∧
      (Outline.leavesAll (outline operatorOf tree) ≠ [] →
        ∃ row e, tokens? predicate.text.toList = some row ∧ Spells .disjunction row e ∧
          (∀ e', Spells .disjunction row e' → e' = e) ∧
          e.subjects = (Outline.leavesAll (outline operatorOf tree)).map
            (fun leaf => (fieldPrefix ++ leaf.1, leaf.2)) ∧
          ∀ truth, some (e.value truth 0) =
            join.value? (Outline.values truth 0 (outline operatorOf tree))) := by
  obtain ⟨nodes, found, rfl⟩ := ok_of_map compiled
  have kept := clauses_keep found
  have named := isFieldName_of_outline operatorOf tree
  rw [← kept.leaves] at named ⊢
  cases left : clauses nodes with
  | nil => exact ⟨⟨fun _ => rfl, fun _ => rfl⟩, fun some => absurd rfl some⟩
  | cons clause rest =>
      rw [left] at kept named
      have present := Outline.leavesAll_ne_nil _ (List.cons_ne_nil _ _) kept.filled
      have rendered := Clause.rendersAll spelled join (clause :: rest) (List.cons_ne_nil _ _) named
        kept.filled
      refine ⟨⟨fun empty => absurd empty rendered.text_ne_empty,
        fun none => absurd none present⟩, fun _ => ?_⟩
      obtain ⟨row, e, read, spelledBy, tested, meant⟩ := rendered.predicate
      refine ⟨row, e, read.whole, spelledBy, fun e' other => other.unique spelledBy, tested, ?_⟩
      intro truth
      exact (meant truth 0).symm.trans (congrArg join.value? (kept.values truth 0))

theorem nested_keeps_meaning :
    compile "t." .and nestedTree = .ok nestedPredicate ∧
      ∃ row e, tokens? nestedPredicate.text.toList = some row ∧ Spells .disjunction row e ∧
        (∀ e', Spells .disjunction row e' → e' = e) ∧
        e.subjects = [("t.name", some (.compare .eq)), ("t.AND", some (.test .isEmpty)),
          ("t.b", some (.compare .like))] ∧
        ∀ truth : Nat → Bool, e.value truth 0 = (truth 0 && (truth 1 || truth 2)) := by
  refine ⟨compile_nestedTree, ?_⟩
  obtain ⟨-, reading⟩ :=
    compile_keeps_meaning "t." .and nestedTree nestedPredicate (by decide) compile_nestedTree
  obtain ⟨row, e, read, spelled, unique, tested, meant⟩ := reading (List.cons_ne_nil _ _)
  refine ⟨row, e, read, spelled, unique, tested, fun truth => ?_⟩
  have value : Join.and.value? (Outline.values truth 0 (outline operatorOf nestedTree)) =
      some (truth 0 && ((truth 1 || (truth 2 || false)) && true)) := rfl
  have same := Option.some.inj ((meant truth).trans value)
  simpa using same

end Predicate

end Multicall.Filter
