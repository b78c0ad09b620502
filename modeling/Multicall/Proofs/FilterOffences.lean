import Multicall.Proofs.PredicateSecrecy
/-!
What is wrong with a filter document. A walk visits its members depth first in document order and
looks inside a member only where the name says that it is a group. What a visited member can offend
against is told for that member alone: its name, its value and how many groups it stands in. Reading
fails exactly if some visited member offends, and the error is that of the first one.
-/
namespace Multicall.Filter

/-- A member that is visited, with the number of groups that it stands in. -/
structure Visit where
  depth : Nat
  key : String
  value : Json

def namesGroup (key : String) : Bool := (Join.named? (untagged key)).isSome

def namesField (key : String) : Bool := !namesGroup key && isFieldName (untagged key)

mutual
/-- A member, and all that is visited inside it. -/
def walkMember (depth : Nat) (key : String) : Json → List Visit
  | .object members =>
      ⟨depth, key, .object members⟩ :: if namesGroup key then walk (depth + 1) members else []
  | value => [⟨depth, key, value⟩]

/-- The visited members in order, where these stand in so many groups. -/
def walk (depth : Nat) : List (String × Json) → List Visit
  | [] => []
  | (key, value) :: rest => walkMember depth key value ++ walk depth rest
end

mutual
/-- How many levels of groups stand below a group with this value. -/
def levelsBelow : Json → Nat
  | .object members => levels members
  | _ => 0

/-- How deep groups nest among members. A name alone makes a group, whatever its value. -/
def levels : List (String × Json) → Nat
  | [] => 0
  | (key, value) :: rest => max (if namesGroup key then levelsBelow value + 1 else 0) (levels rest)
end

/-- What the condition of a field can offend against. -/
inductive Misstated (field : String) : Json → FilterError → Prop
  | bare {value} (bare : ∀ members, value ≠ .object members) :
      Misstated field value (.invalidCondition field)
  | missingOperator {members} (missing : Json.present? (Assoc.get? "operator" members) = none) :
      Misstated field (.object members) (.missingOperator field)
  | unknownWord {members token} (given : Assoc.get? "operator" members = some (.string token))
      (unknown : Operator.parse? token = none) :
      Misstated field (.object members) (.unknownOperator field token)
  | noWord {members given} (present : Json.present? (Assoc.get? "operator" members) = some given)
      (noText : ∀ token, given ≠ .string token) :
      Misstated field (.object members) (.unknownOperator field given.compact)
  | unsupportedValue {members token comparison}
      (given : Assoc.get? "operator" members = some (.string token))
      (compares : Operator.parse? token = some (.compare comparison))
      (typed : declaredType members ≠ .null)
      (nested : (∃ items, Assoc.get? "value" members = some (.array items)) ∨
        ∃ inner, Assoc.get? "value" members = some (.object inner)) :
      Misstated field (.object members) (.unsupportedValue field)

/-- What a visited member can offend against. One that names neither a group nor a field never
offends. -/
inductive Visit.Offends : Visit → FilterError → Prop
  | tooDeep {depth key value} (group : namesGroup key = true) (deep : 32 ≤ depth) :
      Offends ⟨depth, key, value⟩ (.tooDeep 32)
  | invalidGroup {depth key value} (group : namesGroup key = true) (shallow : depth < 32)
      (bare : ∀ members, value ≠ .object members) :
      Offends ⟨depth, key, value⟩ (.invalidGroup key)
  | condition {depth key value e} (field : namesField key = true)
      (misstated : Misstated (untagged key) value e) : Offends ⟨depth, key, value⟩ e

/-- Of the visited members the first that offends does so in this way. -/
inductive FirstOffence : List Visit → FilterError → Prop
  | here {visit later e} (offends : visit.Offends e) : FirstOffence (visit :: later) e
  | behind {visit later e} (fine : ∀ f, ¬ visit.Offends f) (first : FirstOffence later e) :
      FirstOffence (visit :: later) e

/-- None of the visited members offends. -/
def Clean (visits : List Visit) : Prop := ∀ visit ∈ visits, ∀ e, ¬ visit.Offends e

variable {α β : Type}

/-- The outcome of reading is what the visited members tell. -/
def Tells (visits : List Visit) : Except FilterError α → Prop
  | .ok _ => Clean visits
  | .error e => FirstOffence visits e

section Outcomes

variable {visits later : List Visit} {visit : Visit} {x : Except FilterError α}

theorem clean_nil : Clean [] := by simp [Clean]

theorem clean_cons (fine : ∀ e, ¬ visit.Offends e) (clean : Clean visits) :
    Clean (visit :: visits) := by
  intro other member
  rcases List.mem_cons.mp member with same | behind
  · rw [same]
    exact fine
  · exact clean other behind

theorem FirstOffence.append {e : FilterError} (first : FirstOffence visits e) (later : List Visit) :
    FirstOffence (visits ++ later) e := by
  induction first with
  | here offends => exact .here offends
  | behind fine _ ih => exact .behind fine ih

theorem tells_append_of_clean (clean : Clean visits) (told : Tells later x) :
    Tells (visits ++ later) x := by
  induction visits with
  | nil => exact told
  | cons first rest ih =>
      have fine := clean first List.mem_cons_self
      have behind := ih fun visit member => clean visit (List.mem_cons_of_mem first member)
      cases x with
      | ok a => exact clean_cons fine behind
      | error e => exact .behind fine behind

theorem Tells.map (told : Tells visits x) (f : α → β) : Tells visits (f <$> x) := by
  cases x with
  | ok a => exact told
  | error e => exact told

/-- What is read second counts only where the first was read without an offence. -/
theorem Tells.bind {f : α → Except FilterError β} (told : Tells visits x)
    (next : ∀ a, Tells later (f a)) : Tells (visits ++ later) (x >>= f) := by
  cases x with
  | ok a => exact tells_append_of_clean told (next a)
  | error e => exact FirstOffence.append told later

theorem FirstOffence.exists_offence {e : FilterError} (first : FirstOffence visits e) :
    ∃ visit ∈ visits, visit.Offends e := by
  induction first with
  | here offends => exact ⟨_, List.mem_cons_self, offends⟩
  | behind _ _ ih =>
      obtain ⟨visit, member, offends⟩ := ih
      exact ⟨visit, List.mem_cons_of_mem _ member, offends⟩

theorem FirstOffence.not_clean {e : FilterError} (first : FirstOffence visits e) :
    ¬ Clean visits := by
  intro clean
  obtain ⟨visit, member, offends⟩ := first.exists_offence
  exact clean visit member e offends

end Outcomes

/-- Only arrays and objects have no parameter, and with the type `null` even these have one. -/
theorem coerce?_eq_none_iff (value : Json) (type : ValueType) :
    coerce? value type = none ↔
      type ≠ .null ∧ ((∃ items, value = .array items) ∨ ∃ members, value = .object members) := by
  cases type <;> cases value <;> simp [coerce?]

namespace Visit

variable {depth : Nat} {key : String} {value : Json} {members : Members}

theorem not_group_of_field (field : namesField key = true) : namesGroup key = false := by
  simp only [namesField, Bool.and_eq_true, Bool.not_eq_true'] at field
  exact field.1

/-- A group that is not too deep and has members offends by these members at most. -/
theorem fine_of_group (group : namesGroup key = true) (shallow : depth < maxDepth)
    (e : FilterError) : ¬ Offends ⟨depth, key, .object members⟩ e := by
  intro offends
  cases offends with
  | tooDeep _ deep => exact absurd shallow (Nat.not_lt.mpr deep)
  | invalidGroup _ _ bare => exact bare members rfl
  | condition field _ => simp [not_group_of_field field] at group

theorem fine_of_neither (group : namesGroup key = false) (field : namesField key = false)
    (e : FilterError) : ¬ Offends ⟨depth, key, value⟩ e := by
  intro offends
  cases offends <;> simp_all

end Visit

section Conditions

variable {field : String} {value : Json} {members : Members} {e : FilterError}

/-- A condition comes to what it offends against. -/
theorem readCondition_of_misstated (misstated : Misstated field value e) :
    readCondition field value = .error e := by
  cases misstated with
  | bare bare =>
      cases value with
      | object members => exact absurd rfl (bare members)
      | null | bool | number | string | array => rfl
  | @missingOperator members missing =>
      have told : readOperator field members = .error (.missingOperator field) := by
        rw [readOperator]
        cases given : Assoc.get? "operator" members with
        | none => rfl
        | some asked => cases asked <;> simp_all [Json.present?]
      rw [readCondition, told]
      rfl
  | @unknownWord members token given unknown =>
      have told : readOperator field members = .error (.unknownOperator field token) := by
        simp [readOperator, given, unknown]
      rw [readCondition, told]
      rfl
  | @noWord members asked present noText =>
      -- what is no text is named by its JSON text, but null counts as missing
      have told : readOperator field members = .error (.unknownOperator field asked.compact) := by
        rw [readOperator]
        cases given : Assoc.get? "operator" members with
        | none => simp [given, Json.present?] at present
        | some other =>
            rw [given] at present
            cases other with
            | null => cases present
            | string token => exact absurd (Option.some.inj present).symm (noText token)
            | bool | number | array | object =>
                cases present
                rfl
      rw [readCondition, told]
      rfl
  | @unsupportedValue members token comparison given compares typed nested =>
      have told : readOperator field members = .ok (.compare comparison) := by
        simp [readOperator, given, compares]
      have unbound : coerce? ((Assoc.get? "value" members).getD .null) (declaredType members) =
          none := by
        rw [coerce?_eq_none_iff]
        constructor
        · exact typed
        · rcases nested with ⟨items, value⟩ | ⟨inner, value⟩ <;> simp [value]
      rw [readCondition, told]
      show Condition.compare comparison <$> readParameter field comparison members = _
      rw [readParameter, unbound]
      rfl

theorem misstated_of_readParameter {token : String} {comparison : Comparison}
    (given : Assoc.get? "operator" members = some (.string token))
    (compares : Operator.parse? token = some (.compare comparison))
    (refused : readParameter field comparison members = .error e) :
    Misstated field (.object members) e := by
  rw [readParameter] at refused
  cases bound :
      coerce? ((Assoc.get? "value" members).getD .null) (declaredType members) with
  | some parameter => simp [bound] at refused
  | none =>
      rw [bound] at refused
      cases refused
      obtain ⟨typed, nested⟩ := (coerce?_eq_none_iff _ _).mp bound
      apply Misstated.unsupportedValue given compares typed
      -- a null value is no array and no object, so the value was not left out
      cases value : Assoc.get? "value" members with
      | none => simp [value] at nested
      | some value => simpa [value] using nested

/-- A condition that cannot be read is misstated. -/
theorem misstated_of_readCondition (failed : readCondition field value = .error e) :
    Misstated field value e := by
  cases value with
  | null | bool | number | string | array =>
      cases failed
      exact .bare (by simp)
  | object members =>
      rw [readCondition, readOperator] at failed
      -- the branches of the reader in their order: each that fails is one constructor of `Misstated`
      cases given : Assoc.get? "operator" members with
      | none =>
          rw [given] at failed
          cases failed
          exact .missingOperator (by simp [given, Json.present?])
      | some asked =>
          rw [given] at failed
          cases asked with
          | null =>
              cases failed
              exact .missingOperator (by simp [given, Json.present?])
          | bool | number | array | object =>
              cases failed
              exact .noWord (by simp [given, Json.present?]) (by simp)
          | string token =>
              cases known : Operator.parse? token with
              | none =>
                  simp only [known] at failed
                  cases failed
                  exact .unknownWord given known
              | some operator =>
                  simp only [known] at failed
                  cases operator with
                  | test asked => cases failed
                  | compare comparison =>
                      replace failed : Condition.compare comparison <$>
                          readParameter field comparison members = .error e := failed
                      cases refused : readParameter field comparison members with
                      | ok parameter =>
                          rw [refused] at failed
                          cases failed
                      | error f =>
                          rw [refused] at failed
                          cases failed
                          exact misstated_of_readParameter given known refused

end Conditions

/-- What a condition offends against can be told from its own members. -/
theorem condition_tells (depth : Nat) (key : String) (value : Json)
    (field : namesField key = true) :
    Tells [⟨depth, key, value⟩] (readCondition (untagged key) value) := by
  cases read : readCondition (untagged key) value with
  | error e => exact .here (.condition field (misstated_of_readCondition read))
  | ok condition =>
      apply clean_cons _ clean_nil
      intro e offends
      cases offends with
      | tooDeep group _ | invalidGroup group _ _ => simp [Visit.not_group_of_field field] at group
      | condition _ misstated => simp [readCondition_of_misstated misstated] at read

mutual
theorem walkMember_tells (depth : Nat) (key : String) (value : Json) :
    Tells (walkMember depth key value) (readMember depth key value) := by
  cases group : namesGroup key with
  | true =>
      obtain ⟨join, named⟩ := Option.isSome_iff_exists.mp group
      by_cases deep : maxDepth ≤ depth
      · -- too deep a group is an offence whatever stands in it
        cases value with
        | object members =>
            simp only [walkMember, readMember, named, deep, if_true]
            exact .here (.tooDeep group deep)
        | null | bool | number | string | array =>
            simp only [walkMember, readMember, named, deep, if_true]
            exact .here (.tooDeep group deep)
      · have shallow : depth < maxDepth := Nat.lt_of_not_le deep
        cases value with
        | object members =>
            simp only [walkMember, readMember, named, deep, group, if_true, if_false]
            have clean : Clean [⟨depth, key, .object members⟩] :=
              clean_cons (Visit.fine_of_group group shallow) clean_nil
            exact tells_append_of_clean clean ((walk_tells (depth + 1) members).map _)
        | null | bool | number | string | array =>
            simp only [walkMember, readMember, named, deep, if_false]
            exact .here (.invalidGroup group shallow nofun)
  | false =>
      have unnamed : Join.named? (untagged key) = none := by simpa [namesGroup] using group
      cases allowed : isFieldName (untagged key) with
      | true =>
          have field : namesField key = true := by simp [namesField, group, allowed]
          have told := condition_tells depth key value field
          cases value with
          | object members =>
              simp only [walkMember, readMember, unnamed, allowed, group, if_true]
              exact told.map _
          | null | bool | number | string | array =>
              simp only [walkMember, readMember, unnamed, allowed, if_true]
              exact told
      | false =>
          -- what is neither a group nor a field is passed over, so it offends against nothing
          have field : namesField key = false := by simp [namesField, allowed]
          have clean : Clean [⟨depth, key, value⟩] :=
            clean_cons (Visit.fine_of_neither group field) clean_nil
          cases value with
          | object members =>
              simp only [walkMember, readMember, unnamed, allowed, group]
              exact clean
          | null | bool | number | string | array =>
              simp only [walkMember, readMember, unnamed, allowed]
              exact clean

theorem walk_tells (depth : Nat) (members : List (String × Json)) :
    Tells (walk depth members) (readMembers depth members) := by
  cases members with
  | nil => exact clean_nil
  | cons member rest =>
      obtain ⟨key, value⟩ := member
      rw [walk, readMembers]
      apply (walkMember_tells depth key value).bind
      intro node
      cases node with
      | none => exact walk_tells depth rest
      | some node => exact (walk_tells depth rest).map _
end

/-! A document is judged by its first offence, so no other can be named. -/

theorem Visit.Offends.unique {visit : Visit} {e f : FilterError} (offends : visit.Offends e)
    (also : visit.Offends f) : e = f := by
  cases offends with
  | tooDeep group deep =>
      cases also with
      | tooDeep _ _ => rfl
      | invalidGroup _ shallow _ => omega
      | condition field _ => simp [Visit.not_group_of_field field] at group
  | invalidGroup group shallow _ =>
      cases also with
      | tooDeep _ deep => omega
      | invalidGroup _ _ _ => rfl
      | condition field _ => simp [Visit.not_group_of_field field] at group
  | condition field misstated =>
      cases also with
      | tooDeep group _ | invalidGroup group _ _ => simp [Visit.not_group_of_field field] at group
      | condition _ other =>
          have read := readCondition_of_misstated misstated
          rw [readCondition_of_misstated other] at read
          exact (Except.error.inj read).symm

theorem FirstOffence.unique {visits : List Visit} {e f : FilterError}
    (first : FirstOffence visits e) (other : FirstOffence visits f) : e = f := by
  induction first with
  | here offends =>
      cases other with
      | here also => exact offends.unique also
      | behind fine _ => exact absurd offends (fine _)
  | behind fine _ ih =>
      cases other with
      | here offends => exact absurd offends (fine _)
      | behind _ later => exact ih later

namespace Tells

variable {visits : List Visit} {x : Except FilterError α}

theorem error_iff (told : Tells visits x) (e : FilterError) :
    x = .error e ↔ FirstOffence visits e := by
  constructor
  · intro failed
    rw [failed] at told
    exact told
  · intro first
    cases x with
    | ok a => exact absurd told first.not_clean
    | error other => rw [told.unique first]

theorem ok_iff (told : Tells visits x) : (∃ a, x = .ok a) ↔ Clean visits := by
  cases x with
  | ok a => exact ⟨fun _ => told, fun _ => ⟨a, rfl⟩⟩
  | error e => exact ⟨nofun, fun clean => absurd clean told.not_clean⟩

end Tells

/-! Around a visited group stand fewer groups than the document nests. -/

mutual
theorem walkMember_levels (depth : Nat) (key : String) (value : Json) {visit : Visit}
    (visited : visit ∈ walkMember depth key value) (group : namesGroup visit.key = true) :
    visit.depth < depth + if namesGroup key then levelsBelow value + 1 else 0 := by
  cases value with
  | object members =>
      rw [walkMember, List.mem_cons] at visited
      rcases visited with same | inside
      · rw [same] at group ⊢
        rw [if_pos group]
        exact Nat.lt_add_of_pos_right (Nat.succ_pos _)
      · cases own : namesGroup key with
        | false => simp [own] at inside
        | true =>
            rw [own, if_pos rfl] at inside
            have within := walk_levels (depth + 1) members inside group
            rw [if_pos rfl, levelsBelow, ← Nat.add_assoc, Nat.add_right_comm]
            exact within
  | null | bool | number | string | array =>
      have own : visit = _ := List.mem_singleton.mp visited
      rw [own] at group ⊢
      rw [if_pos group]
      exact Nat.lt_add_of_pos_right (Nat.succ_pos _)

theorem walk_levels (depth : Nat) (members : List (String × Json)) {visit : Visit}
    (visited : visit ∈ walk depth members) (group : namesGroup visit.key = true) :
    visit.depth < depth + levels members := by
  cases members with
  | nil => simp [walk] at visited
  | cons member rest =>
      obtain ⟨key, value⟩ := member
      rw [walk, List.mem_append] at visited
      rw [levels]
      rcases visited with first | later
      · have within := walkMember_levels depth key value first group
        exact Nat.lt_of_lt_of_le within (Nat.add_le_add_left (Nat.le_max_left _ _) depth)
      · have within := walk_levels depth rest later group
        exact Nat.lt_of_lt_of_le within (Nat.add_le_add_left (Nat.le_max_right _ _) depth)
end

/-- Members whose groups nest no deeper than is read hold no group that is too deep. -/
theorem not_tooDeep_of_levels {members : List (String × Json)}
    (within : levels members ≤ maxDepth) (limit : Nat) :
    ¬ FirstOffence (walk 0 members) (.tooDeep limit) := by
  intro first
  obtain ⟨visit, visited, offends⟩ := first.exists_offence
  cases offends with
  | tooDeep group deep =>
      have around := walk_levels 0 members visited group
      rw [Nat.zero_add] at around
      exact absurd (Nat.lt_of_lt_of_le around within) (Nat.not_lt.mpr deep)
  | condition _ misstated => cases misstated

/-- A test is read whatever the other members of its condition are. -/
theorem readCondition_of_test (field : String) {members : Members} {token : String}
    {asked : FieldTest} (given : Assoc.get? "operator" members = some (.string token))
    (known : Operator.parse? token = some (.test asked)) :
    readCondition field (.object members) = .ok (.test asked) := by
  have told : readOperator field members = .ok (.test asked) := by
    simp [readOperator, given, known]
  rw [readCondition, told]
  rfl

namespace Predicate

variable {fieldPrefix : String} {join : Join} {tree : Json}

theorem compile_eq_error_iff (e : FilterError) :
    compile fieldPrefix join tree = .error e ↔ read tree = .error e := by
  cases found : read tree with
  | ok nodes => simp [compile_of_read fieldPrefix join found]
  | error offence => simp [compile_of_error fieldPrefix join found]

theorem compile_eq_ok_iff :
    (∃ predicate, compile fieldPrefix join tree = .ok predicate) ↔ ∃ nodes, read tree = .ok nodes := by
  cases found : read tree with
  | ok nodes => simp [compile_of_read fieldPrefix join found]
  | error offence => simp [compile_of_error fieldPrefix join found]

/-- Compiling fails exactly if the document is no object or a visited member of it offends, and then
with the error of the first that does. Groups nested no deeper than 32 are never too deep, and a test
is read whatever value and type stand beside it. -/
theorem compile_fails_with_first_offence (fieldPrefix : String) (join : Join) (tree : Json) :
    (∀ e, compile fieldPrefix join tree = .error e ↔
      (∀ members, tree ≠ .object members) ∧ e = .invalidGroup "<root>" ∨
        ∃ members, tree = .object members ∧ FirstOffence (walk 0 members) e) ∧
    ((∃ predicate, compile fieldPrefix join tree = .ok predicate) ↔
      ∃ members, tree = .object members ∧ Clean (walk 0 members)) ∧
    (∀ members limit, tree = .object members → levels members ≤ 32 →
      compile fieldPrefix join tree ≠ .error (.tooDeep limit)) ∧
    ∀ field members token asked, Assoc.get? "operator" members = some (.string token) →
      Operator.parse? token = some (.test asked) →
        readCondition field (.object members) = .ok (.test asked) := by
  simp only [ne_eq, compile_eq_error_iff, compile_eq_ok_iff]
  cases tree with
  | null | bool | number | string | array =>
      simp only [read, rootName]
      constructor
      · simp [eq_comm]
      constructor
      · simp
      constructor
      · intro members limit same
        cases same
      · exact fun field _ _ _ => readCondition_of_test field
  | object members =>
      have told : Tells (walk 0 members) (read (.object members)) := walk_tells 0 members
      constructor
      · simp [told.error_iff]
      constructor
      · simp [told.ok_iff]
      constructor
      · intro others limit same within failed
        cases same
        exact not_tooDeep_of_levels within limit ((told.error_iff _).mp failed)
      · exact fun field _ _ _ => readCondition_of_test field

/-- Of several offences the first in the document counts, and what stands under a name that is not
allowed is none. -/
example : compile "" .and (.object [("a b", .object [("#and", .null)]),
    ("x", .object [("operator", .string "isnull"), ("value", .array [])]),
    ("#or:1", .bool true), ("y", .null)]) = .error (.invalidGroup "#or:1") := by
  rfl

end Predicate
end Multicall.Filter
