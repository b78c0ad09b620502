import Multicall.Text.Ascii
import Multicall.Text.Blank
/-!
The operators of a condition. A test looks at the field alone and binds nothing; a comparison
binds one parameter. Each has a symbolic or a word spelling, in any ASCII case, and blanks around
it do not count.
-/
namespace Multicall.Filter

/-- Tests of the field alone. -/
inductive FieldTest
  | isNull
  | isNotNull
  | isEmpty
  | isNotEmpty
  deriving DecidableEq, Repr

inductive Comparison
  | eq
  | ne
  | gt
  | ge
  | lt
  | le
  | like
  | notLike
  deriving DecidableEq, Repr

inductive Operator
  | test (test : FieldTest)
  | compare (comparison : Comparison)
  deriving DecidableEq, Repr

/-- The empty text counts as null where emptiness is asked for. -/
def FieldTest.sql (field : String) : FieldTest → String
  | .isNull => field ++ " IS NULL"
  | .isNotNull => field ++ " IS NOT NULL"
  | .isEmpty => "NULLIF(" ++ field ++ ", '') IS NULL"
  | .isNotEmpty => "NULLIF(" ++ field ++ ", '') IS NOT NULL"

def Comparison.sql : Comparison → String
  | .eq => "="
  | .ne => "<>"
  | .gt => ">"
  | .ge => ">="
  | .lt => "<"
  | .le => "<="
  | .like => "LIKE"
  | .notLike => "NOT LIKE"

/-- Whether the parameter is a pattern, where `*` stands for any text. -/
def Comparison.takesPattern : Comparison → Bool
  | .like | .notLike => true
  | _ => false

def Operator.spellings : List (String × Operator) :=
  [("isnull", .test .isNull), ("isnotnull", .test .isNotNull), ("isempty", .test .isEmpty),
   ("isnotempty", .test .isNotEmpty), ("=", .compare .eq), ("eq", .compare .eq),
   ("!=", .compare .ne), ("<>", .compare .ne), ("ne", .compare .ne), (">", .compare .gt),
   ("gt", .compare .gt), (">=", .compare .ge), ("ge", .compare .ge), ("<", .compare .lt),
   ("lt", .compare .lt), ("<=", .compare .le), ("le", .compare .le), ("~", .compare .like),
   ("like", .compare .like), ("!~", .compare .notLike), ("notlike", .compare .notLike)]

def Operator.parse? (token : String) : Option Operator :=
  Operator.spellings.lookup (Ascii.lower (Blank.trim token))

end Multicall.Filter
