import Lockstep.Json.Value
import Lockstep.Settings

/-!
Settings from JSON:

    { "max_output_len": 40,
      "timing": { "tick_ms": 400, "fast_forward_start_ms": 100,
                  "fast_forward_min_ms": 4, "fast_forward_ramp_ms": 5000 } }

Each field may be left out and then has its default.
-/
namespace Lockstep

open Json (Reader field)

def Timing.reader : Reader Timing :=
  Json.record
    [field "tick_ms" Json.uint64 fun v (t : Timing) => { t with tick := v },
     field "fast_forward_start_ms" Json.uint64 fun v (t : Timing) => { t with fastStart := v },
     field "fast_forward_min_ms" Json.uint64 fun v (t : Timing) => { t with fastLeast := v },
     field "fast_forward_ramp_ms" Json.uint64 fun v (t : Timing) => { t with fastRamp := v }]
    {} some

def Settings.reader : Reader Settings :=
  Json.record
    [field "max_output_len" Json.uint64 fun v (s : Settings) => { s with outputLimit := v },
     field "timing" Timing.reader fun v (s : Settings) => { s with timing := v }]
    {} some

def Settings.ofJson (text : String) : Except Json.Fault Settings :=
  Json.readAll Settings.reader text

end Lockstep
