import Multicall.Proofs.PredicateMeaning
/-!
Comments in predicates. A predicate is spliced into a longer statement, where a comment would swallow
what follows. What a predicate is written with around its fields has no dash, slash or star, so a
word made of these stands in a predicate only where it stands in a field. Field names may hold dashes,
however, even two in a row.
-/
namespace Multicall.Filter

/-- The characters that predicates are written with around their fields. -/
def isSyntaxChar (c : Char) : Bool := c.isAlphanum || " ()',:_=<>".toList.contains c

/-- A word that has no character of the syntax. -/
structure Foreign (word : List Char) : Prop where
  nonempty : word ≠ []
  apart : ∀ c ∈ word, isSyntaxChar c = false

theorem foreign_dashes : Foreign ['-', '-'] where
  nonempty := List.cons_ne_nil _ _
  apart := List.forall_mem_cons.mpr ⟨by decide, List.forall_mem_singleton.mpr (by decide)⟩

theorem foreign_slash_star : Foreign ['/', '*'] where
  nonempty := List.cons_ne_nil _ _
  apart := List.forall_mem_cons.mpr ⟨by decide, List.forall_mem_singleton.mpr (by decide)⟩

namespace Foreign

variable {word first second : List Char}

theorem not_mem (foreign : Foreign word) (syntactic : second.all isSyntaxChar = true) :
    ∀ c ∈ word, c ∉ second := by
  intro c among found
  have known := List.all_eq_true.mp syntactic c found
  exact Bool.false_ne_true ((foreign.apart c among).symm.trans known)

theorem infix_append_syntax (foreign : Foreign word)
    (syntactic : second.all isSyntaxChar = true) :
    word <:+: first ++ second ↔ word <:+: first := by
  constructor
  · intro found
    rcases List.infix_append_iff.mp found with within | behind | ⟨start, rest, rfl, ends, begins⟩
    · exact within
    · obtain ⟨c, among⟩ := List.exists_mem_of_ne_nil _ foreign.nonempty
      exact absurd (behind.subset among) (foreign.not_mem syntactic c among)
    · cases rest with
      | nil =>
        rw [List.append_nil]
        exact ends.isInfix
      | cons c more =>
        have among : c ∈ start ++ c :: more := by simp
        exact absurd (begins.subset List.mem_cons_self) (foreign.not_mem syntactic c among)
  · exact fun within => within.trans (List.prefix_append _ _).isInfix

theorem infix_syntax_append (foreign : Foreign word)
    (syntactic : first.all isSyntaxChar = true) :
    word <:+: first ++ second ↔ word <:+: second := by
  constructor
  · intro found
    rcases List.infix_append_iff.mp found with before | within | ⟨start, rest, rfl, ends, begins⟩
    · obtain ⟨c, among⟩ := List.exists_mem_of_ne_nil _ foreign.nonempty
      exact absurd (before.subset among) (foreign.not_mem syntactic c among)
    · exact within
    · cases start with
      | nil => exact begins.isInfix
      | cons c more =>
        have among : c ∈ c :: more ++ rest := by simp
        exact absurd (ends.subset List.mem_cons_self) (foreign.not_mem syntactic c among)
  · exact fun within => within.trans (List.suffix_append _ _).isInfix

/-- No foreign word reaches from one text over a piece of syntax into another. -/
theorem infix_parted (foreign : Foreign word) {between : List Char} (some : between ≠ [])
    (syntactic : between.all isSyntaxChar = true) :
    word <:+: first ++ between ++ second ↔ word <:+: first ∨ word <:+: second := by
  constructor
  · intro found
    rcases List.infix_append_iff.mp found with before | behind | ⟨start, rest, rfl, ends, begins⟩
    · exact .inl ((foreign.infix_append_syntax syntactic).mp before)
    · exact .inr behind
    · rcases List.eq_nil_or_concat start with rfl | ⟨more, c, rfl⟩
      · exact .inr begins.isInfix
      · -- the last character in front of the second text is one of the syntax
        obtain ⟨piece, last, rfl⟩ := (List.eq_nil_or_concat between).resolve_left some
        have same : c = last := by
          obtain ⟨front, whole⟩ := ends
          have lasts := congrArg List.getLast? whole
          simpa using lasts
        have among : c ∈ more.concat c ++ rest := by simp
        exact absurd (by simp [same]) (foreign.not_mem syntactic c among)
  · rintro (before | behind)
    · rw [List.append_assoc]
      exact before.trans (List.prefix_append _ _).isInfix
    · exact behind.trans (List.suffix_append _ _).isInfix

theorem infix_test (foreign : Foreign word) (field : String) (asked : FieldTest) :
    word <:+: (asked.sql field).toList ↔ word <:+: field.toList := by
  cases asked <;> simp only [FieldTest.sql, String.toList_append]
  · exact foreign.infix_append_syntax (by decide)
  · exact foreign.infix_append_syntax (by decide)
  · rw [foreign.infix_append_syntax (by decide), foreign.infix_syntax_append (by decide)]
  · rw [foreign.infix_append_syntax (by decide), foreign.infix_syntax_append (by decide)]

end Foreign

theorem Comparison.sql_syntactic (comparison : Comparison) :
    comparison.sql.toList.all isSyntaxChar = true := by
  cases comparison <;> decide

theorem Placeholder.text_syntactic (p : Placeholder) : p.text.toList.all isSyntaxChar = true := by
  obtain ⟨run, letters, all⟩ := p.text_mark
  rw [letters, List.all_cons, Bool.and_eq_true, List.all_eq_true]
  refine ⟨by decide, fun c found => ?_⟩
  rcases Bool.or_eq_true_iff.mp (all c found) with plain | mark
  · simp [isSyntaxChar, plain]
  · rw [beq_iff_eq.mp mark]
    decide

mutual
theorem Clause.infix_sql {word : List Char} (foreign : Foreign word) (fieldPrefix : String)
    (clause : Clause) :
    word <:+: (clause.sql fieldPrefix).toList ↔
      ∃ leaf ∈ clause.outline.leaves, word <:+: (fieldPrefix ++ leaf.1).toList := by
  cases clause with
  | test field asked =>
    rw [Clause.sql, foreign.infix_test]
    simp [Clause.outline, Outline.leaves]
  | compare field comparison placeholder parameter =>
    have behind : (" ".toList ++ comparison.sql.toList ++ " ".toList ++
        placeholder.text.toList).all isSyntaxChar = true := by
      simp only [List.all_append, comparison.sql_syntactic, placeholder.text_syntactic,
        Bool.and_true]
      decide
    rw [Clause.sql]
    simp only [String.toList_append, List.append_assoc] at behind ⊢
    rw [← List.append_assoc, foreign.infix_append_syntax behind]
    simp [Clause.outline, Outline.leaves]
  | group join clauses =>
    rw [Clause.sql, String.toList_append, String.toList_append,
      foreign.infix_append_syntax (by decide), foreign.infix_syntax_append (by decide)]
    exact Clause.infix_sqlAll foreign fieldPrefix join clauses

theorem Clause.infix_sqlAll {word : List Char} (foreign : Foreign word) (fieldPrefix : String)
    (join : Join) (clauses : List Clause) :
    word <:+: (join.between (Clause.sqlAll fieldPrefix clauses)).toList ↔
      ∃ leaf ∈ Outline.leavesAll (Clause.outlineAll clauses),
        word <:+: (fieldPrefix ++ leaf.1).toList := by
  cases clauses with
  | nil =>
    constructor
    · exact fun found => absurd (List.infix_nil.mp found) foreign.nonempty
    · rintro ⟨leaf, none, -⟩
      cases none
  | cons clause rest =>
    have head := Clause.infix_sql foreign fieldPrefix clause
    cases rest with
    | nil =>
      rw [Clause.sqlAll, Clause.sqlAll, join.between_single, head]
      simp [Clause.outlineAll, Outline.leavesAll]
    | cons other more =>
      have tail := Clause.infix_sqlAll foreign fieldPrefix join (other :: more)
      have spelled : (" " ++ join.sql ++ " ").toList.all isSyntaxChar = true := by
        cases join <;> decide
      have some : (" " ++ join.sql ++ " ").toList ≠ [] := by cases join <;> decide
      have leaves : Outline.leavesAll (Clause.outlineAll (clause :: other :: more)) =
          clause.outline.leaves ++ Outline.leavesAll (Clause.outlineAll (other :: more)) := rfl
      rw [Clause.sqlAll, Clause.sqlAll, join.between_cons_cons, String.toList_append,
        String.toList_append, foreign.infix_parted some spelled, head, ← Clause.sqlAll, tail, leaves]
      simp only [List.mem_append, or_and_right, exists_or]
end

namespace Predicate

/-- A foreign word stands in a predicate exactly where it stands in the prefix and the name of a
condition that survives. -/
theorem infix_text {word : List Char} (foreign : Foreign word) {fieldPrefix : String} {join : Join}
    {tree : Json} {predicate : Predicate} (compiled : compile fieldPrefix join tree = .ok predicate) :
    word <:+: predicate.text.toList ↔
      ∃ leaf ∈ Outline.leavesAll (outline operatorOf tree),
        word <:+: (fieldPrefix ++ leaf.1).toList := by
  obtain ⟨nodes, found, rfl⟩ := ok_of_map compiled
  rw [← (clauses_keep found).leaves]
  exact Clause.infix_sqlAll foreign fieldPrefix join (clauses nodes)

theorem dashes_in_field {fieldPrefix name : String} (free : '-' ∉ fieldPrefix.toList) :
    ['-', '-'] <:+: (fieldPrefix ++ name).toList ↔ ['-', '-'] <:+: name.toList := by
  rw [String.toList_append]
  constructor
  · intro found
    rcases List.infix_append_iff.mp found with before | within | ⟨start, rest, split, ends, begins⟩
    · exact absurd (before.subset List.mem_cons_self) free
    · exact within
    · cases start with
      | nil =>
        rw [List.nil_append] at split
        exact split ▸ begins.isInfix
      | cons c more =>
        obtain ⟨rfl, -⟩ := List.cons_eq_cons.mp split
        exact absurd (ends.subset List.mem_cons_self) free
  · exact fun within => within.trans (List.suffix_append _ _).isInfix

/-- A field name has no slash, so a comment of this kind opens in the prefix or right behind it. -/
theorem slash_star_in_field {fieldPrefix name : String} (named : isFieldName name = true) :
    ['/', '*'] <:+: (fieldPrefix ++ name).toList ↔
      ['/', '*'] <:+: fieldPrefix.toList ∨
        (['/'] <:+ fieldPrefix.toList ∧ ['*'] <+: name.toList) := by
  have plain : '/' ∉ name.toList := by
    rw [isFieldName, Ascii.consistsOf, Bool.and_eq_true] at named
    exact fun found => Bool.false_ne_true (List.all_eq_true.mp named.2 '/' found)
  rw [String.toList_append]
  constructor
  · intro found
    -- the name has no slash, so the mark lies in the prefix or its slash is the last of it
    rcases List.infix_append_iff.mp found with before | within | ⟨start, rest, split, ends, begins⟩
    · exact .inl before
    · exact absurd (within.subset List.mem_cons_self) plain
    · cases start with
      | nil =>
        rw [List.nil_append] at split
        exact absurd (begins.subset (split ▸ List.mem_cons_self)) plain
      | cons slash more =>
        rw [List.cons_append, List.cons.injEq] at split
        obtain ⟨rfl, left⟩ := split
        cases more with
        | nil =>
          rw [List.nil_append] at left
          exact .inr ⟨ends, left ▸ begins⟩
        | cons star others =>
          rw [List.cons_append, List.cons.injEq] at left
          obtain ⟨rfl, nothing⟩ := left
          obtain ⟨rfl, rfl⟩ := List.append_eq_nil_iff.mp nothing.symm
          exact .inl ends.isInfix
  · rintro (before | ⟨⟨front, before⟩, ⟨more, behind⟩⟩)
    · exact before.trans (List.prefix_append _ _).isInfix
    · exact ⟨front, more, by simp [← before, ← behind]⟩

/-- For every filter, every root join and every prefix without a dash: two dashes in a row stand in
the predicate exactly where the name of a condition that survives has them, and a slash with a star
behind it exactly where the prefix of such a condition has them, or ends in the slash before a name
that begins with the star. -/
theorem comments_open_in_fields (fieldPrefix : String) (join : Join) (tree : Json)
    (predicate : Predicate) (free : '-' ∉ fieldPrefix.toList)
    (compiled : compile fieldPrefix join tree = .ok predicate) :
    (['-', '-'] <:+: predicate.text.toList ↔
      ∃ leaf ∈ Outline.leavesAll (outline operatorOf tree), ['-', '-'] <:+: leaf.1.toList) ∧
    (['/', '*'] <:+: predicate.text.toList ↔
      ∃ leaf ∈ Outline.leavesAll (outline operatorOf tree), ['/', '*'] <:+: fieldPrefix.toList ∨
        (['/'] <:+ fieldPrefix.toList ∧ ['*'] <+: leaf.1.toList)) := by
  constructor
  · rw [infix_text foreign_dashes compiled]
    simp only [dashes_in_field free]
  · rw [infix_text foreign_slash_star compiled]
    constructor
    · rintro ⟨leaf, among, found⟩
      exact ⟨leaf, among, (slash_star_in_field (isFieldName_of_outline _ _ leaf among)).mp found⟩
    · rintro ⟨leaf, among, found⟩
      exact ⟨leaf, among, (slash_star_in_field (isFieldName_of_outline _ _ leaf among)).mpr found⟩

def starredTree : Json :=
  .object [("*", .object [("operator", .string "isnull")]),
    ("a-b", .object [("operator", .string "isnotnull")])]

/-- Under a prefix that ends in a slash, a name that begins with a star opens a comment, and a name
with a single dash does not. -/
theorem star_behind_slash_opens :
    '-' ∉ "t/".toList ∧
    compile "t/" .and starredTree = .ok ⟨"t/* IS NULL AND t/a-b IS NOT NULL", []⟩ ∧
    ['/', '*'] <:+: "t/* IS NULL AND t/a-b IS NOT NULL".toList ∧
    ¬ ['-', '-'] <:+: "t/* IS NULL AND t/a-b IS NOT NULL".toList := by
  have compiled : compile "t/" .and starredTree =
      .ok ⟨"t/* IS NULL AND t/a-b IS NOT NULL", []⟩ := by rfl
  have leaves : Outline.leavesAll (outline operatorOf starredTree) =
      [("*", some (.test .isNull)), ("a-b", some (.test .isNotNull))] := by rfl
  obtain ⟨dashes, stars⟩ := comments_open_in_fields "t/" .and _ _ (by decide) compiled
  rw [leaves] at dashes stars
  refine ⟨by decide, compiled, stars.mpr ?_, fun found => ?_⟩
  · exact ⟨_, List.mem_cons_self, .inr ⟨⟨['t'], by decide⟩, ⟨[], by decide⟩⟩⟩
  · have single : ¬ ['-', '-'] <:+: ['a', '-', 'b'] := by simp [List.infix_cons_iff]
    have none : ¬ ['-', '-'] <:+: ['*'] := by simp [List.infix_cons_iff]
    obtain ⟨leaf, among, within⟩ := dashes.mp found
    rcases List.mem_cons.mp among with rfl | among
    · exact none within
    · obtain rfl := List.mem_singleton.mp among
      exact single within

/-- A name may hold dashes anywhere, so it may open a comment itself. -/
theorem dashes_in_name_open :
    '-' ∉ "".toList ∧
    compile "" .and (.object [("a--", .object [("operator", .string "isnull")])]) =
      .ok ⟨"a-- IS NULL", []⟩ ∧
    ['-', '-'] <:+: "a-- IS NULL".toList :=
  ⟨by decide, by rfl, ['a'], " IS NULL".toList, by decide⟩

end Predicate

end Multicall.Filter
