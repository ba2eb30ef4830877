import ListQuery.Execution.Database

/-!
# A scripted database

A database whose answers are settled in advance, one for each statement, and which keeps a log of
what was asked of it. After the last answer there are no rows, and the number is zero.
-/

namespace ListQuery

open Sql

structure ScriptedAnswer where
  rows    : List Row := []
  number  : Int := 0
  failure : Option Failure := none

inductive Event where
  | connect
  | execute (s : Statement)
  | close

structure Script where
  answers : List ScriptedAnswer
  /-- What was asked so far. -/
  events  : List Event := []

namespace Script

def log (e : Event) (s : Script) : Script := { s with events := s.events ++ [e] }

/-- The next answer, read in one of its parts. -/
def answer {α : Type} (read : ScriptedAnswer → α) (statement : Statement) (s : Script) :
    Except Failure α × Script :=
  let s := s.log (.execute statement)
  let next := s.answers.headD {}
  let result := match next.failure with
    | some f => .error f
    | none   => .ok (read next)
  (result, { s with answers := s.answers.tail })

def database : Database Script where
  connect := log .connect
  close   := log .close
  rows    := answer (·.rows)
  number  := answer (·.number)

end Script

end ListQuery
