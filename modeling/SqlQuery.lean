import SqlQuery.Main
import SqlQuery.Query.Build
import SqlQuery.Session
import SqlQuery.Proofs.Injection
import SqlQuery.Proofs.Binding.Statement
import SqlQuery.Proofs.Acceptance.Statement
import SqlQuery.Proofs.Reading.Filter
import SqlQuery.Proofs.Reading.Chain
import SqlQuery.Proofs.Outline
import SqlQuery.Proofs.Relational.Rewriting
import SqlQuery.Proofs.Relational.Agreement
import SqlQuery.Proofs.Relational.Statement
import SqlQuery.Proofs.Noninterference
import SqlQuery.Proofs.Paging.Acceptance
import SqlQuery.Proofs.Paging.Erasure
import SqlQuery.Proofs.Paging.Alignment
import SqlQuery.Proofs.Lexical.Pairs
import SqlQuery.Proofs.Paging.Text
import SqlQuery.Proofs.Paging.Statement
import SqlQuery.Proofs.Subquery.Context
import SqlQuery.Proofs.Subquery.Frame
import SqlQuery.Proofs.Subquery.Select
import SqlQuery.Proofs.Subquery.Statement
import SqlQuery.Proofs.Building.Conditions
import SqlQuery.Proofs.Session.Log
import SqlQuery.Proofs.Session.Cache
import SqlQuery.Proofs.Session.Execution
import SqlQuery.Proofs.Session.Probe
import SqlQuery.Proofs.Calendar.Text
import SqlQuery.Proofs.Description.RoundTrip
import SqlQuery.Proofs.Emptiness
import SqlQuery.Proofs.Aggregate.Reduction
import SqlQuery.Proofs.Aggregate.Ordering
import SqlQuery.Proofs.Acceptance.Operators
import SqlQuery.Proofs.Joins
import SqlQuery.Proofs.Appending
import SqlQuery.Proofs.Lexical.Blanks
import SqlQuery.Proofs.Identifiers
import SqlQuery.Proofs.Comparison.Basic
import SqlQuery.Proofs.Comparison.Negation
import SqlQuery.Proofs.Comparison.DatePart
import SqlQuery.Proofs.Lexical.Case
import SqlQuery.Proofs.Operators.Symbols
import SqlQuery.Proofs.Operators.Written
import SqlQuery.Proofs.Operators.Spelling
import SqlQuery.Proofs.Lexical.Digits
import SqlQuery.Proofs.EngineVersion
import SqlQuery.Proofs.Paging.Pages
import SqlQuery.Proofs.Session.Listing
import SqlQuery.Proofs.Number.Double
import SqlQuery.Proofs.Number.Rounding
import SqlQuery.Proofs.Number.Reading
import SqlQuery.Proofs.CommandLine.Procedure
