import Multicall.Filter.Tree
/-!
Compiled filters: a predicate text with placeholders, and the parameters they stand for. Groups
are numbered in the order in which they are reached, the root being zero and groups without
conditions counted too; comparisons are numbered within their group. So no two comparisons share a
placeholder, and the text holds field names and placeholders but never a value.
-/
namespace Multicall.Filter

structure Placeholder where
  group : Nat
  leaf : Nat
  deriving DecidableEq, Repr

def Placeholder.text (p : Placeholder) : String :=
  ":p" ++ Ascii.decimal p.group ++ "_" ++ Ascii.decimal p.leaf

theorem Placeholder.text_toList (p : Placeholder) :
    p.text.toList = ':' :: 'p' :: (Ascii.digits p.group ++ '_' :: Ascii.digits p.leaf) := by
  simp [text, Ascii.decimal, String.toList_append]

/-- A condition of the compiled filter, or a group that has at least one. -/
inductive Clause
  | test (field : String) (test : FieldTest)
  | compare (field : String) (comparison : Comparison) (placeholder : Placeholder)
      (parameter : Parameter)
  | group (join : Join) (clauses : List Clause)

mutual
/-- Numbers a member of group `own`, whose comparisons so far are `leaves`, where `next` is the
number of the next group: its clause, if one is left, and the two counts after it. -/
def Node.number (own leaves next : Nat) : Node → Option Clause × Nat × Nat
  | .condition field (.test test) => (some (.test field test), leaves, next)
  | .condition field (.compare comparison parameter) =>
      (some (.compare field comparison ⟨own, leaves + 1⟩ parameter), leaves + 1, next)
  | .group join members =>
      let (clauses, after) := numberAll next 0 (next + 1) members
      (if clauses.isEmpty then none else some (.group join clauses), leaves, after)

def Node.numberAll (own leaves next : Nat) : List Node → List Clause × Nat
  | [] => ([], next)
  | node :: rest =>
      let (clause, leaves, next) := Node.number own leaves next node
      let (clauses, after) := numberAll own leaves next rest
      (clause.toList ++ clauses, after)
end

theorem Node.numberAll_cons (own leaves next : Nat) (node : Node) (rest : List Node) :
    Node.numberAll own leaves next (node :: rest) =
      ((Node.number own leaves next node).1.toList ++
        (Node.numberAll own (Node.number own leaves next node).2.1
          (Node.number own leaves next node).2.2 rest).1,
        (Node.numberAll own (Node.number own leaves next node).2.1
          (Node.number own leaves next node).2.2 rest).2) :=
  rfl

/-- The clauses of a whole filter. -/
def clauses (members : List Node) : List Clause := (Node.numberAll 0 0 1 members).1

/-- Texts with the join between any two. -/
def Join.between (join : Join) (texts : List String) : String :=
  String.intercalate (" " ++ join.sql ++ " ") texts

theorem Join.between_single (join : Join) (text : String) : join.between [text] = text :=
  String.intercalate_singleton

theorem Join.between_cons_cons (join : Join) (text other : String) (rest : List String) :
    join.between (text :: other :: rest) =
      text ++ (" " ++ join.sql ++ " ") ++ join.between (other :: rest) :=
  String.intercalate_cons_cons

mutual
/-- The text of a clause, where every field carries a prefix. -/
def Clause.sql (fieldPrefix : String) : Clause → String
  | .test field asked => asked.sql (fieldPrefix ++ field)
  | .compare field comparison placeholder _ =>
      fieldPrefix ++ field ++ " " ++ comparison.sql ++ " " ++ placeholder.text
  | .group join clauses => "(" ++ join.between (Clause.sqlAll fieldPrefix clauses) ++ ")"

def Clause.sqlAll (fieldPrefix : String) : List Clause → List String
  | [] => []
  | clause :: rest => Clause.sql fieldPrefix clause :: sqlAll fieldPrefix rest
end

mutual
/-- The placeholders of a clause and their parameters, from left to right. -/
def Clause.bindings : Clause → List (Placeholder × Parameter)
  | .test _ _ => []
  | .compare _ _ placeholder parameter => [(placeholder, parameter)]
  | .group _ clauses => Clause.bindingsAll clauses

def Clause.bindingsAll : List Clause → List (Placeholder × Parameter)
  | [] => []
  | clause :: rest => Clause.bindings clause ++ bindingsAll rest
end

structure Predicate where
  text : String
  parameters : Assoc Parameter

/-- Binds placeholders one after the other. -/
def bindAll (bindings : List (Placeholder × Parameter)) : Assoc Parameter :=
  bindings.foldl (fun table b => table.set b.1.text b.2) []

namespace Predicate

def ofClauses (fieldPrefix : String) (join : Join) (clauses : List Clause) : Predicate where
  text := join.between (Clause.sqlAll fieldPrefix clauses)
  parameters := bindAll (Clause.bindingsAll clauses)

/-- The predicate of a filter document, with a join between its members and a prefix before every
field. -/
def compile (fieldPrefix : String) (join : Join) (tree : Json) : Except FilterError Predicate := do
  return ofClauses fieldPrefix join (clauses (← read tree))

def isEmpty (p : Predicate) : Bool := p.text.isEmpty

def toJson (p : Predicate) : Json :=
  .object [("predicate", .string p.text),
    ("params", .object (p.parameters.map fun entry => (entry.1, entry.2.toJson)))]

end Predicate
end Multicall.Filter
