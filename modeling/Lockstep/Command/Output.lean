/-!
What a command leaves behind: its exit code and the lines it printed.
-/
namespace Lockstep

structure Output where
  exit : UInt8
  stdout : List String := []
  stderr : List String := []
  deriving Repr, DecidableEq

namespace Output

def printed (lines : List String) : String := String.join (lines.map (· ++ "\n"))

def stdoutText (o : Output) : String := printed o.stdout

def stderrText (o : Output) : String := printed o.stderr

end Output
end Lockstep
