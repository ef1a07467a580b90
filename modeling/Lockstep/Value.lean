/-!
The numbers a node can hold. Whatever is stored, an accumulator, a broadcast, the sum on a channel
or an output, is first drawn into the range from -490 to 490.
-/
namespace Lockstep

def minValue : Int := -490

def maxValue : Int := 490

def clamp (n : Int) : Int := max minValue (min n maxValue)

end Lockstep
