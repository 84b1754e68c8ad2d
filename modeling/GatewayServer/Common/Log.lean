import GatewayServer.Lib.Resumption
import Mathlib.Data.Nat.Notation

/-!
# Logging and exceptions

A log line has no effect on the state of the server, so the model leaves out the lines that
print what they are given. A line is built by `boost::format`, though, which throws when it is
fed more arguments than its text refers to. The model keeps the lines that do.

## Main definitions

* `Exn` — the exceptions that the modelled code can throw
* `expectedArgs` — the number of arguments a format text refers to
* `logFormat` — a log line, with the exception it may throw
-/

namespace GatewayServer

open Lib

/-- The exceptions thrown by the modelled code; all of them derive from `std::exception`. -/
inductive Exn where
  /-- `std::invalid_argument`, with its text. -/
  | invalidArgument (what : String)
  /-- `std::out_of_range`, thrown by `unordered_map::at`. -/
  | outOfRange
  /-- `boost::io::too_many_args`. -/
  | tooManyArgs
  deriving DecidableEq, Repr

/-- The largest `N` among the directives `%N%` of a format text. The texts of the repository
number their arguments with one digit. -/
def expectedArgs : List Char → ℕ
  | [] => 0
  | '%' :: d :: '%' :: rest =>
    if d.isDigit then max (d.toNat - '0'.toNat) (expectedArgs rest) else expectedArgs rest
  | _ :: rest => expectedArgs rest

/-- `log::write` of a `boost::format` text that is fed `fed` arguments. -/
def logFormat {σ : Type} (text : String) (fed : ℕ) : Prog σ Exn PUnit :=
  if expectedArgs text.toList < fed then .throw .tooManyArgs else pure ⟨⟩

theorem logFormat_of_lt {σ : Type} {text : String} {fed : ℕ}
    (h : expectedArgs text.toList < fed) :
    (logFormat text fed : Prog σ Exn PUnit) = .throw .tooManyArgs :=
  if_pos h

example : expectedArgs "user_id=%1% not used channel=%2%".toList = 2 := by decide

end GatewayServer
