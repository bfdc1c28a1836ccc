import Mathlib.Data.BitVec
import Mathlib.Tactic.Common

/-!
# OpenSSL's error queue

Every interface of the component leaves its errors in the one queue that OpenSSL keeps for the
thread. This file models the queue and the functions of `src/component.c` that shorten it.

## Main definitions

* `ErrorEntry` and `ErrorQueue`: the queue, the oldest entry first;
* `popError`, `clearErrors` and `drainErrors`: the calls of the error interface.

## Main results

* `drainErrors_eq`: draining reports the whole queue, and leaves it empty.
-/

namespace OpenSSLWasm

/-- An entry of the queue. No error has the code 0, which stands for an empty queue. -/
structure ErrorEntry where
  code : BitVec 32
  code_ne_zero : code ≠ 0
  file : Option String := none
  line : BitVec 32 := 0
  /-- The text that was attached, with `ERR_TXT_STRING` set. -/
  data : Option String := none
  deriving DecidableEq

/-- The queue, the oldest entry first. -/
abbrev ErrorQueue := List ErrorEntry

/-- The texts that libcrypto has for its codes. -/
structure ErrorStrings where
  /-- `ERR_lib_error_string`. -/
  lib : BitVec 32 → Option String
  /-- `ERR_reason_error_string`. -/
  reason : BitVec 32 → Option String

/-- `error-info`. -/
structure ErrorInfo where
  code : BitVec 64
  library : String
  reason : String
  file : Option String
  line : Option (BitVec 32)
  data : Option String
  deriving DecidableEq

section

variable (T : ErrorStrings)

def fillErrorInfo (e : ErrorEntry) : ErrorInfo where
  code := e.code.setWidth 64
  library := (T.lib e.code).getD ""
  reason := (T.reason e.code).getD ""
  file := e.file
  -- 0 and the empty text stand for nothing
  line := if e.line ≠ 0 then some e.line else none
  data := e.data.filter (· ≠ "")

def popError : ErrorQueue → Option ErrorInfo × ErrorQueue
  | [] => (none, [])
  | e :: q => (some (fillErrorInfo T e), q)

def clearErrors (_ : ErrorQueue) : ErrorQueue := []

/-- The loop of `drain-errors`, with the entries that were taken off before. -/
def drainErrorsLoop (buf : List ErrorInfo) : ErrorQueue → List ErrorInfo × ErrorQueue
  | [] => (buf, [])
  | e :: q => drainErrorsLoop (buf ++ [fillErrorInfo T e]) q

def drainErrors (q : ErrorQueue) : List ErrorInfo × ErrorQueue := drainErrorsLoop T [] q

theorem drainErrorsLoop_eq (buf : List ErrorInfo) (q : ErrorQueue) :
    drainErrorsLoop T buf q = (buf ++ q.map (fillErrorInfo T), []) := by
  induction q generalizing buf with
  | nil => simp [drainErrorsLoop]
  | cons e q ih => simp [drainErrorsLoop, ih]

/-- Draining reports every entry, the oldest first, and leaves the queue empty. -/
theorem drainErrors_eq (q : ErrorQueue) :
    drainErrors T q = (q.map (fillErrorInfo T), []) := by
  rw [drainErrors, drainErrorsLoop_eq, List.nil_append]

end

/-- The loop around `ERR_get_error` in the error paths, which prints the entries. -/
def getErrors : ErrorQueue → ErrorQueue
  | [] => []
  | _ :: q => getErrors q

theorem getErrors_eq (q : ErrorQueue) : getErrors q = [] := by
  induction q with
  | nil => rfl
  | cons e q ih => exact ih

end OpenSSLWasm
