import Worklist.Connective
import Worklist.Value

/-!
# SQL conditions

The conditions of a WHERE clause as data, with their text and their parameters.  Values never
enter the text: each stands as a question mark, and `params` lists the values in the order in which
their marks are written.
-/

namespace Worklist.Sql

/-- A value bound to a mark of the text. -/
inductive Param where
  | text (s : String)
  | int (n : Int64)
  | double (x : Binary64)
  | bool (b : Bool)
  | date (t : Instant)
  /-- An expression that the backend resolves. -/
  | expression (s : String)
  deriving DecidableEq

/-- A scalar expression. -/
inductive Expr where
  | column (name : String)
  | literal (s : String)
  /-- Marks for values, separated by commas; one value is the usual case. -/
  | marks (params : List Param)
  | upper (e : Expr)
  | coalesce (first second : Expr)

/-- A comparison of two scalars. -/
inductive Relation where
  | eq
  | ne
  | lt
  | gt
  | ge
  | le
  deriving DecidableEq

def Relation.text : Relation → String
  | eq => "="
  | ne => "<>"
  | lt => "<"
  | gt => ">"
  | ge => ">="
  | le => "<="

/-- A table of a subquery, with the letter that its columns are written with. -/
inductive Source where
  | identityLinks
  | storedVariables
  deriving DecidableEq

def Source.text : Source → String
  | identityLinks => "ACT_RU_IDENTITYLINK I"
  | storedVariables => "ACT_RU_VARIABLE V"

/-- A condition. -/
inductive Condition where
  | compare (left : Expr) (relation : Relation) (right : Expr)
  | like (isNegated : Bool) (left right : Expr) (escape : Char)
  | isIn (isNegated : Bool) (left : Expr) (options : List Expr)
  | isNull (isNegated : Bool) (e : Expr)
  /-- Some row of a table satisfies all conditions. -/
  | anyRow (isNegated : Bool) (source : Source) (conditions : List Condition)
  /-- Conditions in brackets. -/
  | bracket (connective : Connective) (conditions : List Condition)
  /-- No row satisfies this. -/
  | never

/-! ## Text -/

/-- Texts with a separator between them. -/
def joined (separator : String) (texts : List String) : String := separator.intercalate texts

/-- A question mark for each of `count` values. -/
def markList (count : Nat) : String := joined ", " (List.replicate count "?")

/-- The words `NOT ` of a negated condition. -/
def notText (isNegated : Bool) : String := if isNegated then "NOT " else ""

def Expr.text : Expr → String
  | column name => name
  | literal s => "'" ++ s ++ "'"
  | marks params => markList params.length
  | upper e => "UPPER(" ++ e.text ++ ")"
  | coalesce first second => "COALESCE(" ++ first.text ++ ", " ++ second.text ++ ")"

mutual

def Condition.text : Condition → String
  | .compare left relation right => left.text ++ " " ++ relation.text ++ " " ++ right.text
  | .like isNegated left right escape =>
    left.text ++ " " ++ notText isNegated ++ "LIKE " ++ right.text ++ " ESCAPE '" ++
      escape.toString ++ "'"
  | .isIn isNegated left options =>
    left.text ++ " " ++ notText isNegated ++ "IN (" ++ joined ", " (options.map Expr.text) ++ ")"
  | .isNull isNegated e => e.text ++ " IS " ++ notText isNegated ++ "NULL"
  | .anyRow isNegated source conditions =>
    notText isNegated ++ "EXISTS (SELECT 1 FROM " ++ source.text ++ " WHERE " ++
      joined " AND " (texts conditions) ++ ")"
  | .bracket connective conditions =>
    "(" ++ joined (" " ++ connective.sql ++ " ") (texts conditions) ++ ")"
  | .never => "1 = 0"

/-- The text of each condition. -/
def texts : List Condition → List String
  | [] => []
  | c :: cs => c.text :: texts cs

end

/-! ## Parameters -/

def Expr.params : Expr → List Param
  | column _ => []
  | literal _ => []
  | marks params => params
  | upper e => e.params
  | coalesce first second => first.params ++ second.params

mutual

def Condition.params : Condition → List Param
  | .compare left _ right => left.params ++ right.params
  | .like _ left right _ => left.params ++ right.params
  | .isIn _ left options => left.params ++ options.flatMap Expr.params
  | .isNull _ e => e.params
  | .anyRow _ _ conditions => paramsOfAll conditions
  | .bracket _ conditions => paramsOfAll conditions
  | .never => []

/-- The parameters of conditions in order. -/
def paramsOfAll : List Condition → List Param
  | [] => []
  | c :: cs => c.params ++ paramsOfAll cs

end

end Worklist.Sql
