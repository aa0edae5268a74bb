import IodriversBase.Stream

namespace IodriversBase

def toInt32 (z : ℤ) : ℤ := Int.bmod z (2 ^ 32)

def toUnsigned32 (z : ℤ) : ℤ := z % 2 ^ 32

structure Timeval where
  sec : ℤ
  usec : ℤ
  deriving DecidableEq, Repr

def timevalOf (t : Time) : Timeval := ⟨t / 1000000, t % 1000000⟩

/-- The class `Timeout`; `timeout` is an `unsigned int` in milliseconds. -/
structure Timeout where
  timeout : ℤ
  startTime : Timeval
  deriving DecidableEq, Repr

/-- The milliseconds between two readings, the microseconds divided towards zero. -/
def elapsedMilliseconds (start current : Timeval) : ℤ :=
  (current.sec - start.sec) * 1000 + (current.usec - start.usec).tdiv 1000

def Timeout.elapsed (self : Timeout) (current : Timeval) : Bool :=
  let elapsed := toUnsigned32 (elapsedMilliseconds self.startTime current)
  self.timeout < elapsed

def Timeout.timeLeft (self : Timeout) (current : Timeval) : ℤ :=
  let elapsed := toInt32 (elapsedMilliseconds self.startTime current)
  if toInt32 self.timeout < elapsed then 0
  else toUnsigned32 (self.timeout - elapsed)

end IodriversBase
