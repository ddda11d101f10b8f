import GoNavi.Sqlfile.Control

/-! # Results of SQL file runs

The counters of `sqlFileExecutionResult`, and the details of its errors, of which the first ones
are kept. -/

namespace GoNavi.Sqlfile

open Scan

/-- What an error is about; positions count from one. -/
inductive ErrorDetail where
  | statement (position : ℕ) (sql : Text)
  | batch (position : ℕ)
  | unclosedTransaction
deriving DecidableEq

structure SQLFileExecutionResult where
  executed : ℕ
  failed : ℕ
  /-- The first errors. -/
  errors : List ErrorDetail
  outcomeUnknown : Bool
deriving DecidableEq

/-- `sqlFileMaxErrorDetails`. -/
def sqlFileMaxErrorDetails : ℕ := 20

namespace SQLFileExecutionResult

def initial : SQLFileExecutionResult := ⟨0, 0, [], false⟩

def appendErrorDetail (result : SQLFileExecutionResult) (detail : ErrorDetail) :
    SQLFileExecutionResult :=
  if result.errors.length < sqlFileMaxErrorDetails then
    { result with errors := result.errors ++ [detail] }
  else result

def recordError (result : SQLFileExecutionResult) (index : ℕ) (stmt : Text) :
    SQLFileExecutionResult :=
  { result with failed := result.failed + 1 }.appendErrorDetail (.statement (index + 1) stmt)

end SQLFileExecutionResult

end GoNavi.Sqlfile
