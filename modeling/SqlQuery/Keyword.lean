/-!
# Keywords

The enumerations of a query description. Each has a `keyword`, its spelling in SQL, and a `tag`, its
name in a written description; `all` lists the members.
-/

namespace SqlQuery

/-- The kind of a statement. -/
inductive Action where
  | select | insert | update | delete
deriving DecidableEq, Inhabited

namespace Action

def all : List Action := [select, insert, update, delete]

def tag : Action → String
  | select => "select"
  | insert => "insert"
  | update => "update"
  | delete => "delete"

def keyword : Action → String
  | select => "SELECT"
  | insert => "INSERT"
  | update => "UPDATE"
  | delete => "DELETE"

end Action

/-- How conditions are connected. -/
inductive Connective where
  | and | or
deriving DecidableEq

namespace Connective

def all : List Connective := [and, or]

def keyword : Connective → String
  | and => "and"
  | or => "or"

def tag (c : Connective) : String := c.keyword

end Connective

/-- The direction of an ordering. -/
inductive SortOrder where
  | asc | desc
deriving DecidableEq

namespace SortOrder

def all : List SortOrder := [asc, desc]

def keyword : SortOrder → String
  | asc => "asc"
  | desc => "desc"

def tag (o : SortOrder) : String := o.keyword

end SortOrder

/-- An aggregate function. -/
inductive AggregateFunc where
  | count | sum | avg | min | max
deriving DecidableEq

namespace AggregateFunc

def all : List AggregateFunc := [count, sum, avg, min, max]

def keyword : AggregateFunc → String
  | count => "count"
  | sum => "sum"
  | avg => "avg"
  | min => "min"
  | max => "max"

def tag (f : AggregateFunc) : String := f.keyword

end AggregateFunc

/-- The kind of a join; the lateral ones join a subquery that may refer to what stands before it. -/
inductive JoinKind where
  | inner | left | right | cross | lateralInner | lateralLeft
deriving DecidableEq

namespace JoinKind

def all : List JoinKind := [inner, left, right, cross, lateralInner, lateralLeft]

def tag : JoinKind → String
  | inner => "inner"
  | left => "left"
  | right => "right"
  | cross => "cross"
  | lateralInner => "lateral_inner"
  | lateralLeft => "lateral_left"

/-- The word before `join`. -/
def keyword : JoinKind → String
  | inner | lateralInner => "inner"
  | left | lateralLeft => "left"
  | right => "right"
  | cross => "cross"

def isLateral : JoinKind → Bool
  | lateralInner | lateralLeft => true
  | _ => false

end JoinKind

/-- How the rows of two selects are put together: without or with duplicates. -/
inductive SetOp where
  | union | unionAll
deriving DecidableEq

namespace SetOp

def all : List SetOp := [union, unionAll]

def tag : SetOp → String
  | union => "union"
  | unionAll => "union_all"

def keyword : SetOp → String
  | union => "union"
  | unionAll => "union all"

end SetOp

/-- The part of a timestamp that a predicate compares. -/
inductive DatePart where
  | date | time | day | month | year
deriving DecidableEq

namespace DatePart

def all : List DatePart := [date, time, day, month, year]

def keyword : DatePart → String
  | date => "date"
  | time => "time"
  | day => "day"
  | month => "month"
  | year => "year"

def tag (p : DatePart) : String := p.keyword

/-- Whole dates and times are had by a cast, the calendar fields by extraction. -/
def isCast : DatePart → Bool
  | date | time => true
  | _ => false

end DatePart

end SqlQuery
