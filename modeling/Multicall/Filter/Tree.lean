import Multicall.Filter.Operator
import Multicall.Filter.Parameter
/-!
Filter trees read from documents. A member named `#and` or `#or` is a group, a member with an
allowed field name is a condition, and every other member is left out unseen. A name may carry a
tag behind a colon. Reading goes through the members depth first in document order and stops at
the first offence.
-/
namespace Multicall.Filter

inductive FilterError
  | invalidGroup (key : String)
  | invalidCondition (field : String)
  | missingOperator (field : String)
  | unknownOperator (field operator : String)
  | unsupportedValue (field : String)
  | tooDeep (limit : Nat)
  deriving DecidableEq, Repr

def FilterError.message : FilterError → String
  | .invalidGroup key => "Filter group `" ++ key ++ "` must be an object"
  | .invalidCondition field => "Condition for `" ++ field ++ "` must be an object"
  | .missingOperator field => "Condition for `" ++ field ++ "` has no operator"
  | .unknownOperator field operator =>
      "Unknown operator `" ++ operator ++ "` for `" ++ field ++ "`"
  | .unsupportedValue field =>
      "Unsupported value for `" ++ field ++ "`: arrays and objects cannot be bound"
  | .tooDeep limit =>
      "Filter nesting exceeds " ++ Ascii.decimal limit ++ " levels"

inductive Join
  | and
  | or
  deriving DecidableEq, Repr

def Join.sql : Join → String
  | .and => "AND"
  | .or => "OR"

/-- The join that a group name stands for. -/
def Join.named? (name : String) : Option Join :=
  match Ascii.lower name with
  | "#and" => some .and
  | "#or" => some .or
  | _ => none

/-- What a condition asks of its field. -/
inductive Condition
  | test (test : FieldTest)
  | compare (comparison : Comparison) (parameter : Parameter)
  deriving DecidableEq, Repr

inductive Node
  | condition (field : String) (condition : Condition)
  | group (join : Join) (members : List Node)

/-- The deepest nesting of groups that is read. -/
def maxDepth : Nat := 32

/-- The name under which an offence of the whole document is reported. -/
def rootName : String := "<root>"

def isFieldChar (c : Char) : Bool := c.isAlphanum || c == '_' || c == '.' || c == '*' || c == '-'

def isFieldName (name : String) : Bool := Ascii.consistsOf isFieldChar name

/-- The name of a member without its tag. -/
def untagged (key : String) : String := Ascii.before ':' key

def readOperator (field : String) (members : Members) : Except FilterError Operator :=
  match members.get? "operator" with
  | none | some .null => .error (.missingOperator field)
  | some (.string token) =>
      match Operator.parse? token with
      | some operator => .ok operator
      | none => .error (.unknownOperator field token)
  | some other => .error (.unknownOperator field other.compact)

def declaredType (members : Members) : ValueType :=
  match members.get? "type" with
  | some (.string name) => .named name
  | _ => .string

/-- The parameter of a comparison. An absent value binds like a null one. -/
def readParameter (field : String) (comparison : Comparison) (members : Members) :
    Except FilterError Parameter :=
  match coerce? ((members.get? "value").getD .null) (declaredType members) with
  | none => .error (.unsupportedValue field)
  | some p => .ok (if comparison.takesPattern then p.asPattern else p)

def readCondition (field : String) : Json → Except FilterError Condition
  | .object members => do
      match ← readOperator field members with
      | .test test => return .test test
      | .compare comparison => return .compare comparison (← readParameter field comparison members)
  | _ => .error (.invalidCondition field)

mutual
/-- The member with the given key, at a depth below the root; nothing when its name is not
allowed. -/
def readMember (depth : Nat) (key : String) : Json → Except FilterError (Option Node)
  | .object members =>
      match Join.named? (untagged key) with
      | some join =>
          if maxDepth ≤ depth then .error (.tooDeep maxDepth)
          else do return some (.group join (← readMembers (depth + 1) members))
      | none =>
          if isFieldName (untagged key) then do
            return some (.condition (untagged key)
              (← readCondition (untagged key) (.object members)))
          else .ok none
  | _ =>
      match Join.named? (untagged key) with
      | some _ =>
          if maxDepth ≤ depth then .error (.tooDeep maxDepth) else .error (.invalidGroup key)
      | none =>
          if isFieldName (untagged key) then .error (.invalidCondition (untagged key))
          else .ok none

def readMembers (depth : Nat) : List (String × Json) → Except FilterError (List Node)
  | [] => .ok []
  | (key, value) :: rest => do
      match ← readMember depth key value with
      | some node => return node :: (← readMembers depth rest)
      | none => readMembers depth rest
end

/-- The members of a filter document. -/
def read : Json → Except FilterError (List Node)
  | .object members => readMembers 0 members
  | _ => .error (.invalidGroup rootName)

end Multicall.Filter
