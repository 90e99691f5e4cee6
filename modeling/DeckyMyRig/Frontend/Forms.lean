import DeckyMyRig.Lib.Decimals
import DeckyMyRig.Lib.Octets

/-!
# The forms

The checks that `decky/src/components/PairDeviceForm.tsx` and
`decky/src/components/DeviceForm.tsx` make before they call the backend.
-/

namespace DeckyMyRig.Frontend

open Octets Decimals

/-- `\s` of JavaScript. -/
def isBlank (c : Char) : Bool :=
  let n := c.toNat
  9 ≤ n && n ≤ 13 || n = 0x20 || n = 0xA0 || n = 0x1680 || 0x2000 ≤ n && n ≤ 0x200A || n = 0x2028 ||
    n = 0x2029 || n = 0x202F || n = 0x205F || n = 0x3000 || n = 0xFEFF

def normalized (code : Text) : Text := code.filter fun c => !isBlank c

/-- `pair`: what it gives to `pairDevice`, or the message that it shows. -/
def pairForm (code : Text) : Except Text Text :=
  if (normalized code).length = 6 ∧ (normalized code).all Char.isDigit then .ok (normalized code)
  else .error "Enter the six-digit code shown by DeckyMyRigHostControl.".toList

/-- `submit`: the port that it gives to `saveDevice` as text, or the message that
it shows. `Number` is exact on digits up to 65535, and above it on others. -/
def portForm (port : Text) : Except Text Text :=
  if port ≠ [] ∧ port.all Char.isDigit ∧ 1 ≤ value port ∧ value port ≤ 65535 then .ok port
  else .error "Host port must be a number from 1 to 65535.".toList

theorem isBlank_of_isDigit {c : Char} (h : c.isDigit = true) : isBlank c = false := by
  have hrange := toNat_of_isDigit h
  simp [isBlank]
  omega

theorem normalized_eq_self {code : Text} (h : ∀ c ∈ code, c.isDigit = true) :
    normalized code = code :=
  List.filter_eq_self.mpr fun c hc => by simp [isBlank_of_isDigit (h c hc)]

theorem portForm_eq_ok {port : Text} : portForm port = .ok port ↔
    port ≠ [] ∧ (∀ c ∈ port, c.isDigit = true) ∧ 1 ≤ value port ∧ value port ≤ 65535 := by
  rw [← List.all_eq_true, portForm]
  split
  · rename_i h
    exact ⟨fun _ => h, fun _ => rfl⟩
  · rename_i h
    exact ⟨nofun, fun h' => absurd h' h⟩

end DeckyMyRig.Frontend
