import SodiumDecl.Files.Tree

/-!
# Transfers

How far a download is, and what a fetcher reports and delivers. A fetcher is asked for an
address and answers with its reports, in order, what it left behind in the directory of the
download, and what became of the request.
-/

namespace SodiumDecl

/-- A span of time, in seconds and billionths of a second. -/
structure Elapsed where
  seconds : UInt64
  nanoseconds : UInt32
  deriving DecidableEq, Repr

/-- A span in seconds. -/
def Elapsed.toFloat (e : Elapsed) : Float :=
  e.seconds.toFloat + e.nanoseconds.toFloat / 1000000000.0

/-- How far a download is. The total is known when the server tells it. -/
structure TransferStats where
  transferred : UInt64
  total : Option UInt64
  elapsed : Elapsed
  deriving DecidableEq, Repr

namespace TransferStats

/-- The part that is done, in percent. Nothing out of nothing is all of it. -/
def percent (s : TransferStats) : Option Float :=
  s.total.map fun total =>
    if total = 0 then 100.0 else s.transferred.toFloat * 100.0 / total.toFloat

/-- Bytes in a second, zero while no time has passed. -/
def bytesPerSecond (s : TransferStats) : Float :=
  let seconds := s.elapsed.toFloat
  if seconds > 0.0 then s.transferred.toFloat / seconds else 0.0

end TransferStats

/-- A report on a download. -/
inductive Progress
  | start (url : String) (total : Option UInt64)
  | advance (stats : TransferStats)
  | finish (stats : TransferStats)
  deriving DecidableEq, Repr

/-- What became of a request: the fetcher refused it, left an archive, or left nothing. -/
inductive Outcome
  | refused (reason : String)
  | delivered (archive : ByteArray)
  | nothing

/-- The answer of a fetcher. The leftovers are entries by the names that lead to them from the
directory of the download, in the order in which they were put there: the archive may be among
them, as far as it came before the request was refused. -/
structure Delivery where
  progress : List Progress
  leftovers : List (Location × Entry) := []
  outcome : Outcome

/-- What fetches the archive at an address. -/
abbrev Fetcher := String → Delivery

end SodiumDecl
