import Excerpt.Device

/-! A device that keeps the calls it takes, and may fail once. -/
namespace Excerpt.Device

/-- Records calls; with `failure = some (n, fault)` the call that would be
recorded after `n` others fails instead. -/
def recorder (supportsColor : Bool) (failure : Option (Nat × Fault)) : Device (List Call) where
  supportsColor := supportsColor
  accept calls call :=
    match failure with
    | some (n, fault) => if calls.length = n then (calls, some fault) else (calls ++ [call], none)
    | none => (calls ++ [call], none)

end Excerpt.Device
